import FunctionalOptions.Proofs.Text.Utf8
import FunctionalOptions.Text.Ascii

/-!
# String Literals of the Language

What a string literal of the language stands for. A literal is text between double
quotes on a single line, in which a backslash begins an escape: a letter for one of
the usual control characters, the octal or hexadecimal code of a byte, or the code
point of a character. It stands for bytes, since an escape may name a byte that is
no text by itself.

A text that is put between quotes as it is may therefore stand for something else, or
for nothing. It stands for itself exactly if neither a quote nor a backslash nor a
line break is in it. That nothing else will do is because of the lengths. An escape is
longer than what it stands for, so a literal that stands for as many bytes as it has
is one without escapes. And it cannot go on behind the text, where a quote and the end
of the line follow.

## Main definitions

* `escape?`: What an escape stands for, and what follows it.
* `readQuoted`: What a literal stands for behind its opening quote, and what follows it.
* `Plain`: A text in which nothing has a meaning of its own in a literal.

## Theorems

* `exists_body_of_readQuoted`: How long a literal is.
* `readQuoted_eq_utf8_iff`: Which texts stand for themselves.
-/

namespace FunctionalOptions

namespace Go

/-- The bytes that are named by a letter. -/
def escapeLetters : List (Char × UInt8) :=
  [('a', 0x07), ('b', 0x08), ('f', 0x0C), ('n', 0x0A), ('r', 0x0D), ('t', 0x09), ('v', 0x0B),
    ('\\', 0x5C), ('"', 0x22)]

/-- The number that so many digits of a base write behind those that have been read,
    and what follows them. -/
def digits? (base : Nat) : Nat → Nat → List Char → Option (Nat × List Char)
  | 0, number, rest => some (number, rest)
  | _ + 1, _, [] => none
  | count + 1, number, c :: rest =>
    match Text.hexDigit? c with
    | none => none
    | some digit =>
      if digit < base then digits? base count (number * base + digit) rest else none

/-- The byte that so many digits name. -/
def byteEscape? (base count : Nat) (text : List Char) : Option (List UInt8 × List Char) :=
  (digits? base count 0 text).bind fun (number, rest) =>
    if number < 256 then some ([number.toUInt8], rest) else none

/-- The character that so many hexadecimal digits name. -/
def charEscape? (count : Nat) (text : List Char) : Option (List UInt8 × List Char) :=
  (digits? 16 count 0 text).bind fun (number, rest) =>
    if number.isValidChar then some (String.utf8EncodeChar (Char.ofNat number), rest) else none

/-- What an escape stands for behind its backslash, and what follows it. -/
def escape? : List Char → Option (List UInt8 × List Char)
  | [] => none
  | 'x' :: rest => byteEscape? 16 2 rest
  | 'u' :: rest => charEscape? 4 rest
  | 'U' :: rest => charEscape? 8 rest
  | c :: rest =>
    match escapeLetters.lookup c with
    | some byte => some ([byte], rest)
    | none => byteEscape? 8 3 (c :: rest)

/-- Some characters of one line have been read. -/
structure Reads (text body rest : List Char) : Prop where
  split : text = body ++ rest
  line : ∀ c ∈ body, c ≠ '\n'

theorem Reads.nil (text : List Char) : Reads text [] text :=
  ⟨rfl, fun _ h => absurd h List.not_mem_nil⟩

theorem Reads.cons {c : Char} {text body rest : List Char} (h : Reads text body rest)
    (hc : c ≠ '\n') : Reads (c :: text) (c :: body) rest :=
  ⟨congrArg (List.cons c) h.split, List.forall_mem_cons.mpr ⟨hc, h.line⟩⟩

theorem Reads.append {text body middle more rest : List Char} (h : Reads text body middle)
    (h' : Reads middle more rest) : Reads text (body ++ more) rest :=
  ⟨by rw [h.split, h'.split, List.append_assoc],
    List.forall_mem_append.mpr ⟨h.line, h'.line⟩⟩

theorem exists_body_of_digits? {base count number value : Nat} {text rest : List Char}
    (h : digits? base count number text = some (value, rest)) :
    ∃ body, Reads text body rest ∧ body.length = count := by
  induction count generalizing number text with
  | zero =>
      obtain ⟨-, rfl⟩ := Prod.mk.inj (Option.some.inj h)
      exact ⟨[], .nil _, rfl⟩
  | succ count ih =>
      cases text with
      | nil => exact nomatch h
      | cons c text =>
          rw [digits?] at h
          cases hdigit : Text.hexDigit? c with
          | none =>
              rw [hdigit] at h
              exact nomatch h
          | some digit =>
              simp only [hdigit, Option.ite_none_right_eq_some] at h
              rcases ih h.2 with ⟨body, hreads, hlength⟩
              -- A line break is no digit.
              have hc : c ≠ '\n' := by
                rintro rfl
                exact nomatch hdigit
              exact ⟨c :: body, hreads.cons hc, congrArg Nat.succ hlength⟩

theorem exists_body_of_byteEscape? {base count : Nat} {text rest : List Char}
    {bytes : List UInt8} (h : byteEscape? base count text = some (bytes, rest)) :
    ∃ body, Reads text body rest ∧ body.length = count ∧ bytes.length = 1 := by
  rcases Option.bind_eq_some_iff.mp h with ⟨⟨number, rest'⟩, hdigits, h⟩
  rcases Option.ite_none_right_eq_some.mp h with ⟨-, h⟩
  obtain ⟨rfl, rfl⟩ := Prod.mk.inj (Option.some.inj h)
  rcases exists_body_of_digits? hdigits with ⟨body, hreads, hlength⟩
  exact ⟨body, hreads, hlength, rfl⟩

theorem exists_body_of_charEscape? {count : Nat} {text rest : List Char} {bytes : List UInt8}
    (h : charEscape? count text = some (bytes, rest)) :
    ∃ body, Reads text body rest ∧ body.length = count ∧ bytes.length ≤ 4 := by
  rcases Option.bind_eq_some_iff.mp h with ⟨⟨number, rest'⟩, hdigits, h⟩
  rcases Option.ite_none_right_eq_some.mp h with ⟨-, h⟩
  obtain ⟨rfl, rfl⟩ := Prod.mk.inj (Option.some.inj h)
  rcases exists_body_of_digits? hdigits with ⟨body, hreads, hlength⟩
  refine ⟨body, hreads, hlength, ?_⟩
  rw [String.length_utf8EncodeChar]
  exact Char.utf8Size_le_four _

/-- An escape stands for no more bytes than it has characters behind the backslash. -/
theorem exists_body_of_escape? {text rest : List Char} {bytes : List UInt8}
    (h : escape? text = some (bytes, rest)) :
    ∃ body, Reads text body rest ∧ bytes.length ≤ body.length := by
  unfold escape? at h
  -- One case for each letter that says how many digits follow, and one for all the others.
  split at h
  · exact nomatch h
  · rcases exists_body_of_byteEscape? h with ⟨body, hreads, hbody, hbytes⟩
    exact ⟨_, hreads.cons (by decide), by rw [List.length_cons]; omega⟩
  · rcases exists_body_of_charEscape? h with ⟨body, hreads, hbody, hbytes⟩
    exact ⟨_, hreads.cons (by decide), by rw [List.length_cons]; omega⟩
  · rcases exists_body_of_charEscape? h with ⟨body, hreads, hbody, hbytes⟩
    exact ⟨_, hreads.cons (by decide), by rw [List.length_cons]; omega⟩
  · next c more _ _ _ =>
    split at h
    · next byte hletter =>
      obtain ⟨rfl, rfl⟩ := Prod.mk.inj (Option.some.inj h)
      have hc : c ≠ '\n' := by
        rintro rfl
        exact nomatch hletter
      exact ⟨[c], (Reads.nil _).cons hc, Nat.le_refl _⟩
    · rcases exists_body_of_byteEscape? h with ⟨body, hreads, hbody, hbytes⟩
      exact ⟨body, hreads, by omega⟩

/-- What a literal stands for behind its opening quote, and what follows it. -/
def readQuoted (text : List Char) : Option (List UInt8 × List Char) :=
  match text with
  | [] => none
  | '"' :: rest => some ([], rest)
  | '\n' :: _ => none
  | '\\' :: rest =>
    match _ : escape? rest with
    | none => none
    | some (bytes, more) =>
      (readQuoted more).map fun (others, rest) => (bytes ++ others, rest)
  | c :: rest =>
    (readQuoted rest).map fun (others, rest) => (String.utf8EncodeChar c ++ others, rest)
termination_by text.length
decreasing_by
  · rcases exists_body_of_escape? ‹_› with ⟨body, ⟨rfl, -⟩, -⟩
    simp only [List.length_cons, List.length_append]
    omega
  · exact Nat.lt_succ_self _

/-- Nothing in the text has a meaning of its own in a literal. -/
def Plain (text : List Char) : Prop :=
  ∀ c ∈ text, c ≠ '"' ∧ c ≠ '\\' ∧ c ≠ '\n'

instance (text : List Char) : Decidable (Plain text) :=
  List.decidableBAll (fun c => c ≠ '"' ∧ c ≠ '\\' ∧ c ≠ '\n') text

theorem readQuoted_cons {c : Char} (hc : c ≠ '"' ∧ c ≠ '\\' ∧ c ≠ '\n') (rest : List Char) :
    readQuoted (c :: rest) = (readQuoted rest).map fun (others, rest) =>
      (String.utf8EncodeChar c ++ others, rest) := by
  rw [readQuoted]
  all_goals simp_all

/-- A plain text between quotes stands for itself. -/
theorem readQuoted_of_plain {text : List Char} (h : Plain text) (rest : List Char) :
    readQuoted (text ++ '"' :: rest) = some (utf8 text, rest) := by
  induction text with
  | nil => rw [List.nil_append, readQuoted]; rfl
  | cons c text ih =>
      rcases List.forall_mem_cons.mp h with ⟨hc, htext⟩
      rw [List.cons_append, readQuoted_cons hc, ih htext, utf8_cons]
      rfl

/-- A literal stands for the bytes of its text, if that is plain, or for fewer bytes. -/
theorem exists_body_of_readQuoted {text rest : List Char} {bytes : List UInt8}
    (h : readQuoted text = some (bytes, rest)) :
    ∃ body, Reads text body ('"' :: rest) ∧
      (bytes = utf8 body ∧ Plain body ∨ bytes.length < (utf8 body).length) := by
  fun_induction readQuoted text generalizing bytes with
  | case1 => exact nomatch h
  | case2 =>
      obtain ⟨rfl, rfl⟩ := Prod.mk.inj (Option.some.inj h)
      exact ⟨[], .nil _, Or.inl ⟨rfl, fun _ h => absurd h List.not_mem_nil⟩⟩
  | case3 => exact nomatch h
  | case4 => exact nomatch h
  | case5 text escaped middle hescape ih =>
      rcases Option.map_eq_some_iff.mp h with ⟨⟨others, rest'⟩, hothers, heq⟩
      obtain ⟨rfl, rfl⟩ := Prod.mk.inj heq
      rcases exists_body_of_escape? hescape with ⟨body, hreads, hlength⟩
      rcases ih hothers with ⟨more, hmore, hbytes⟩
      -- The backslash is one byte more than the escape has characters.
      have hothers : others.length ≤ (utf8 more).length := by
        rcases hbytes with ⟨rfl, -⟩ | hshort
        · exact Nat.le_refl _
        · exact Nat.le_of_lt hshort
      have hbody := length_le_length_utf8 body
      refine ⟨'\\' :: (body ++ more), (hreads.append hmore).cons (by decide), Or.inr ?_⟩
      rw [utf8_cons, utf8_append, List.length_append, List.length_append, List.length_append,
        String.length_utf8EncodeChar]
      have hslash := Char.utf8Size_pos '\\'
      omega
  | case6 c text hquote hline hslash ih =>
      rcases Option.map_eq_some_iff.mp h with ⟨⟨others, rest'⟩, hothers, heq⟩
      obtain ⟨rfl, rfl⟩ := Prod.mk.inj heq
      -- A character outside an escape stands for its own bytes.
      rcases ih hothers with ⟨body, hreads, hbytes⟩
      refine ⟨c :: body, hreads.cons hline, ?_⟩
      rw [utf8_cons]
      rcases hbytes with ⟨rfl, hplain⟩ | hshort
      · exact Or.inl ⟨rfl, List.forall_mem_cons.mpr ⟨⟨hquote, hslash, hline⟩, hplain⟩⟩
      · refine Or.inr ?_
        rw [List.length_append, List.length_append]
        omega

/-- A literal ends no later than at the quote with which the line ends. -/
theorem Reads.exists_append {text rest body more : List Char}
    (h : Reads (text ++ '"' :: '\n' :: rest) body ('"' :: more)) :
    ∃ left, text = body ++ left ∧ '"' :: more = left ++ '"' :: '\n' :: rest := by
  rcases List.append_eq_append_iff.mp h.split with ⟨beyond, rfl, hbeyond⟩ | hleft
  · cases beyond with
    | nil => exact ⟨[], by simp, hbeyond.symm⟩
    | cons quote beyond =>
        -- Going on behind the quote, it would have to go on behind the line.
        rcases List.cons.inj hbeyond with ⟨-, hline⟩
        cases beyond with
        | nil => exact absurd (List.cons.inj hline).1 (by decide)
        | cons c beyond =>
            have hc := h.line c (List.mem_append_right _ (List.mem_cons_of_mem _
              List.mem_cons_self))
            exact absurd (List.cons.inj hline).1.symm hc
  · exact hleft

/-- Between quotes at the end of a line, a text stands for itself exactly if it is
    plain. -/
theorem readQuoted_eq_utf8_iff (text rest more : List Char) :
    readQuoted (text ++ '"' :: '\n' :: rest) = some (utf8 text, more) ↔
      Plain text ∧ more = '\n' :: rest := by
  constructor
  · intro h
    rcases exists_body_of_readQuoted h with ⟨body, hreads, hbytes⟩
    rcases hreads.exists_append with ⟨left, rfl, hleft⟩
    have hlength := length_le_length_utf8 left
    rcases hbytes with ⟨heq, hplain⟩ | hshort
    · -- As many bytes as it has characters, so that nothing is left of the text.
      rw [utf8_append] at heq
      have hnone : left = [] := by
        have hbytes := congrArg List.length heq
        rw [List.length_append] at hbytes
        exact List.length_eq_zero_iff.mp (by omega)
      rw [hnone] at hleft
      rw [hnone, List.append_nil]
      exact ⟨hplain, (List.cons.inj hleft).2⟩
    · -- Too short for the part that was read, the bytes are too short for the whole text.
      rw [utf8_append, List.length_append] at hshort
      omega
  · rintro ⟨hplain, rfl⟩
    exact readQuoted_of_plain hplain _

end Go

end FunctionalOptions
