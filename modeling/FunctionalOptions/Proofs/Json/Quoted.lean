import FunctionalOptions.Json.Quoted

/-!
# Reading Written Literals

A literal that was written for a text is read as the text. Writing escapes what
a literal cannot hold as it is, three kinds of characters with three kinds of
escapes, and reading undoes one character at a time: what a character is
written as is scanned as that character, whatever follows.

## Theorems

* `scanQuoted_writeChar`: A written character is scanned as itself.
* `scanQuoted_text`: The body of a written literal is scanned to its quote.
* `readQuoted?_writeQuoted`: A written literal is read as its text.
-/

namespace FunctionalOptions

namespace Json

/-- The four digits of a control character name its number. -/
theorem hexNumber?_control {n : Nat} (h : n < 0x20) :
    hexNumber? '0' '0' (hexDigitChar (n / 16)) (hexDigitChar (n % 16)) = some n := by
  have htable : (List.range 0x20).all (fun n =>
      hexNumber? '0' '0' (hexDigitChar (n / 16)) (hexDigitChar (n % 16)) == some n) = true := by
    decide
  exact beq_iff_eq.mp (List.all_eq_true.mp htable n (List.mem_range.mpr h))

/-- A control character is no half of a pair. -/
theorem CodeUnit.ofNat_control {c : Char} (h : c.toNat < 0x20) :
    CodeUnit.ofNat c.toNat = .scalar c := by
  have hleading : isLeading c.toNat = false := by
    rw [isLeading, decide_eq_false (by omega), Bool.false_and]
  have htrailing : isTrailing c.toNat = false := by
    rw [isTrailing, decide_eq_false (by omega), Bool.false_and]
  rw [CodeUnit.ofNat, hleading, htrailing, Bool.or_self, if_neg Bool.false_ne_true,
    Char.ofNat_toNat]

/-- A character that is neither a quote nor a backslash nor a control character
    stands for itself. -/
theorem scanQuoted_plain {c : Char} (hquote : c ≠ '"') (hslash : c ≠ '\\')
    (hcontrol : ¬c.toNat < 0x20) (rest : List Char) :
    scanQuoted (c :: rest) = (scanQuoted rest).push (.scalar c) := by
  rw [scanQuoted, if_neg hcontrol]
  · exact hquote
  · exact fun h => absurd h hslash
  · exact fun _ _ _ _ _ h => absurd h hslash
  · exact fun _ h => absurd h hslash
  · exact fun _ _ h => absurd h hslash

/-- A written character is scanned as itself. -/
theorem scanQuoted_writeChar (c : Char) (rest : List Char) :
    scanQuoted (writeChar c ++ rest) = (scanQuoted rest).push (.scalar c) := by
  unfold writeChar
  by_cases hquote : c = '"'
  · rw [if_pos hquote, hquote]
    rfl
  rw [if_neg hquote]
  by_cases hslash : c = '\\'
  · rw [if_pos hslash, hslash]
    rfl
  rw [if_neg hslash]
  by_cases hback : c = '\x08'
  · rw [if_pos hback, hback]
    rfl
  rw [if_neg hback]
  by_cases hfeed : c = '\x0c'
  · rw [if_pos hfeed, hfeed]
    rfl
  rw [if_neg hfeed]
  by_cases hline : c = '\n'
  · rw [if_pos hline, hline]
    rfl
  rw [if_neg hline]
  by_cases hreturn : c = '\r'
  · rw [if_pos hreturn, hreturn]
    rfl
  rw [if_neg hreturn]
  by_cases htab : c = '\t'
  · rw [if_pos htab, htab]
    rfl
  rw [if_neg htab]
  by_cases hcontrol : c.toNat < 0x20
  · -- The first two of the four digits are always zero.
    rw [if_pos hcontrol]
    simp only [List.cons_append, List.nil_append, scanQuoted, hexNumber?_control hcontrol,
      CodeUnit.ofNat_control hcontrol]
  · rw [if_neg hcontrol]
    exact scanQuoted_plain hquote hslash hcontrol rest

/-- The body of a written literal is scanned to its quote. -/
theorem scanQuoted_text (text rest : List Char) :
    scanQuoted (text.flatMap writeChar ++ '"' :: rest) = ⟨text.map .scalar, .ok rest⟩ := by
  induction text with
  | nil => rfl
  | cons c cs ih =>
      rw [List.flatMap_cons, List.append_assoc, scanQuoted_writeChar, ih]
      rfl

/-- Units that are all characters are joined to a text of them. -/
theorem join?_scalars (text : List Char) : join? (text.map .scalar) = some text := by
  induction text with
  | nil => rfl
  | cons c cs ih => rw [List.map_cons, join?, ih, Option.map_some]

/-- A written literal is read as its text. -/
theorem readQuoted?_writeQuoted (text : String) :
    readQuoted? (writeQuoted text).toList = some text.toList := by
  rw [writeQuoted, String.toList_ofList, List.cons_append, readQuoted?, scanQuoted_text]
  exact join?_scalars text.toList

end Json

end FunctionalOptions
