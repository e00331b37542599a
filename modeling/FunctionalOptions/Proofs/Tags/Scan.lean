import FunctionalOptions.Go.StructTag
import FunctionalOptions.Proofs.Tags.Dialects
import FunctionalOptions.Proofs.Text.Runs
import FunctionalOptions.Proofs.Text.Utf8

/-!
# Pairs of a Tag

How a tag is taken apart into its pairs. Keys are scanned by characters and values by
bytes: a value ends at the first quote byte that no backslash protects, and a backslash
protects one byte, which may be the first of a character that has more.

Nothing is lost by this. The other bytes of such a character are neither a quote nor a
backslash, so the scan passes over them as it would have passed over the character. It
finds the quote that a scan by characters finds, and the cut behind it falls between two
characters.

A lookup then goes from pair to pair and stops at the first one with the key, or where no
pair begins. So it has two parts, to find the literal of the key and to decode it, and
what is found depends neither on what any literal stands for nor on the pairs behind.

## Main definitions

* `StructTag.untilQuote`: What stands in front of the quote that ends a value, and what
  stands behind it. The same for characters and for bytes.
* `StructTag.firstPair?`: The key and the literal a tag begins with, and what follows.
* `StructTag.literal?`: The literal of a key.

## Theorems

* `StructTag.untilQuote_utf8`: The quote is the same for characters and for bytes.
* `StructTag.closingQuote_eq`, `StructTag.cut_utf8`: The scan of a value and its cut.
* `StructTag.lookup_eq_bind`: A lookup finds a literal and decodes it.
-/

namespace FunctionalOptions

namespace Go

namespace StructTag

/-! ## The end of a value -/

section Quote

variable {α : Type} [DecidableEq α] (quote slash : α)

/-- What stands in front of the first quote that is not protected, and what stands behind
    it. A backslash that is not protected itself protects what comes next. -/
def untilQuote : Bool → List α → Option (List α × List α)
  | _, [] => none
  | true, a :: rest =>
    (untilQuote false rest).map fun (value, rest) => (a :: value, rest)
  | false, a :: rest =>
    if a = quote then some ([], rest)
    else (untilQuote (decide (a = slash)) rest).map fun (value, rest) => (a :: value, rest)

variable {quote slash} {guarded : Bool} {run rest value text : List α}

/-- The value, the quote and the rest make up the text. -/
theorem untilQuote_append (h : untilQuote quote slash guarded text = some (value, rest)) :
    text = value ++ quote :: rest := by
  induction text generalizing guarded value with
  | nil => cases guarded <;> contradiction
  | cons a text ih =>
      cases guarded with
      | true =>
          rcases Option.map_eq_some_iff.mp h with ⟨⟨value, rest'⟩, hvalue, heq⟩
          obtain ⟨rfl, rfl⟩ := Prod.mk.inj heq
          rw [ih hvalue, List.cons_append]
      | false =>
          rw [untilQuote] at h
          split_ifs at h with hquote
          · obtain ⟨rfl, rfl⟩ := Prod.mk.inj (Option.some.inj h)
            rw [hquote, List.nil_append]
          · rcases Option.map_eq_some_iff.mp h with ⟨⟨value, rest'⟩, hvalue, heq⟩
            obtain ⟨rfl, rfl⟩ := Prod.mk.inj heq
            rw [ih hvalue, List.cons_append]

/-- What is neither a quote nor a backslash is passed over. -/
theorem untilQuote_run (h : ∀ a ∈ run, a ≠ quote ∧ a ≠ slash) (rest : List α) :
    untilQuote quote slash false (run ++ rest) =
      (untilQuote quote slash false rest).map fun (value, rest) => (run ++ value, rest) := by
  induction run with
  | nil => exact Option.map_id'.symm
  | cons a run ih =>
      rcases List.forall_mem_cons.mp h with ⟨ha, hrun⟩
      rw [List.cons_append, untilQuote, if_neg ha.1, decide_eq_false ha.2, ih hrun,
        Option.map_map]
      rfl

end Quote

/-- No byte beyond ASCII has a meaning. -/
theorem ne_marks_of_le {b : UInt8} (h : 0x80 ≤ b.toNat) : b ≠ 0x22 ∧ b ≠ 0x5C := by
  constructor <;>
    · rintro rfl
      exact absurd h (by decide)

/-- No byte of a character without a meaning has one. -/
theorem ne_marks_of_mem_utf8EncodeChar {c : Char} (h : c ≠ '"' ∧ c ≠ '\\') :
    ∀ b ∈ String.utf8EncodeChar c, b ≠ 0x22 ∧ b ≠ 0x5C := by
  intro b hb
  have hclass := forall_mem_utf8EncodeChar (p := fun c => decide (c ≠ '"' ∧ c ≠ '\\'))
    (q := fun b => decide (b ≠ 0x22 ∧ b ≠ 0x5C)) true (by decide) (fun c hc => by
      refine decide_eq_true ⟨?_, ?_⟩ <;>
        · rintro rfl
          exact absurd hc (by decide))
    (fun b hb => decide_eq_true (ne_marks_of_le hb)) c b hb
  rw [decide_eq_true h] at hclass
  exact of_decide_eq_true hclass

/-- The quote that ends a value is the same for characters and for bytes, although a
    backslash protects only the first byte of a character. -/
theorem untilQuote_utf8 (guarded : Bool) (text : List Char) :
    untilQuote 0x22 0x5C guarded (utf8 text) =
      (untilQuote '"' '\\' guarded text).map fun (value, rest) => (utf8 value, utf8 rest) := by
  have hquoteBytes : String.utf8EncodeChar '"' = [0x22] := rfl
  have hslashBytes : String.utf8EncodeChar '\\' = [0x5C] := rfl
  induction text generalizing guarded with
  | nil => cases guarded <;> rfl
  | cons c text ih =>
      cases guarded with
      | true =>
          cases hbytes : String.utf8EncodeChar c with
          | nil => exact absurd hbytes (utf8EncodeChar_ne_nil c)
          | cons b more =>
              -- The other bytes of the protected character do not look like marks.
              have hmore : ∀ b ∈ more, b ≠ 0x22 ∧ b ≠ 0x5C := by
                intro b hb
                refine ne_marks_of_le (le_of_mem_tail_utf8EncodeChar (c := c) b ?_)
                rwa [hbytes]
              rw [utf8_cons, hbytes, List.cons_append, untilQuote, untilQuote_run hmore, ih,
                untilQuote, Option.map_map, Option.map_map, Option.map_map]
              refine congrArg (Option.map · _) (funext fun ⟨value, rest⟩ => ?_)
              simp only [Function.comp, utf8_cons, hbytes, List.cons_append]
      | false =>
          by_cases hquote : c = '"'
          · rw [hquote, utf8_cons, hquoteBytes, List.singleton_append, untilQuote, if_pos rfl,
              untilQuote, if_pos rfl]
            rfl
          · by_cases hslash : c = '\\'
            · rw [hslash, utf8_cons, hslashBytes, List.singleton_append, untilQuote,
                if_neg (by decide), decide_eq_true rfl, ih, untilQuote, if_neg (by decide),
                decide_eq_true rfl, Option.map_map, Option.map_map]
              rfl
            · rw [utf8_cons, untilQuote_run (ne_marks_of_mem_utf8EncodeChar ⟨hquote, hslash⟩), ih,
                untilQuote, if_neg hquote, decide_eq_false hslash, Option.map_map, Option.map_map]
              rfl

/-! ## The value of the program -/

theorem bytes_eq_utf8 (text : List Char) : bytes text = utf8 text :=
  rfl

/-- The scan for the closing quote counts the bytes in front of it. -/
theorem closingQuote_eq (bytes : List UInt8) :
    closingQuote bytes =
      (untilQuote 0x22 0x5C false bytes).map fun (value, _) => value.length := by
  fun_induction closingQuote bytes with
  | case1 => rfl
  | case2 => rfl
  | case3 => rfl
  | case4 b rest _ ih =>
    -- The scan skips the byte behind a backslash at once.
    rw [ih, untilQuote, if_neg (by decide), decide_eq_true rfl, untilQuote, Option.map_map,
      Option.map_map, Option.map_map]
    rfl
  | case5 b rest hquote hslash ih =>
    rw [ih, untilQuote, if_neg hquote, decide_eq_false hslash, Option.map_map, Option.map_map]
    rfl

/-- A text is cut behind the bytes of what it begins with. -/
theorem cut_utf8 (before after : List Char) :
    cut (utf8 before).length (before ++ after) = some (before, after) := by
  induction before with
  | nil => exact cut.eq_1 after
  | cons c before ih =>
      have hpos := Char.utf8Size_pos c
      have hlength : (utf8 (c :: before)).length =
          (c.utf8Size - 1 + (utf8 before).length) + 1 := by
        rw [utf8_cons, List.length_append, String.length_utf8EncodeChar]
        omega
      have hrest : c.utf8Size - 1 + (utf8 before).length + 1 - c.utf8Size =
          (utf8 before).length := by
        omega
      -- There are enough bytes left for the character.
      rw [hlength, List.cons_append, cut, if_pos (by omega), hrest, ih, Option.map_some]

/-! ## Pairs -/

/-- The key and the literal that a tag begins with, the literal without its quotes, and what
    follows them. -/
def firstPair? (tag : List Char) : Option (List Char × List Char × List Char) :=
  let tag := tag.dropWhile (· = ' ')
  match tag.dropWhile isKeyChar with
  | ':' :: '"' :: text =>
    if (tag.takeWhile isKeyChar).isEmpty then none
    else (untilQuote '"' '\\' false text).map fun (body, rest) =>
      (tag.takeWhile isKeyChar, body, rest)
  | _ => none

/-- A pair is read as it was written, behind any number of spaces. -/
theorem firstPair?_spaces {key body rest text : List Char} (n : Nat)
    (hkey : ∀ c ∈ key, isKeyChar c = true) (hne : key ≠ [])
    (h : untilQuote '"' '\\' false text = some (body, rest)) :
    firstPair? (List.replicate n ' ' ++ (key ++ ':' :: '"' :: text)) = some (key, body, rest) := by
  have hspaces : ∀ c ∈ List.replicate n ' ', decide (c = ' ') = true := fun c hc =>
    decide_eq_true (List.eq_of_mem_replicate hc)
  have hhead : ∀ c ∈ (key ++ ':' :: '"' :: text).head?, decide (c = ' ') = false := by
    intro c hc
    rw [List.head?_append_of_ne_nil _ hne] at hc
    refine decide_eq_false ?_
    rintro rfl
    exact absurd (hkey ' ' (List.mem_of_mem_head? hc)) (by decide)
  have hcolon : ∀ c ∈ (':' :: '"' :: text).head?, isKeyChar c = false := by
    rintro c ⟨⟩
    decide
  rcases Text.takeWhile_append_of_head hkey hcolon with ⟨htake, hdrop⟩
  rw [firstPair?, (Text.takeWhile_append_of_head hspaces hhead).2, hdrop, htake]
  simp only [List.isEmpty_iff, hne, if_false, h, Option.map_some]

/-- A tag with a first pair consists of spaces, the pair and the rest. -/
theorem eq_of_firstPair? {tag key body rest : List Char}
    (h : firstPair? tag = some (key, body, rest)) :
    tag = tag.takeWhile (· = ' ') ++ (key ++ ':' :: '"' :: (body ++ '"' :: rest)) := by
  rw [firstPair?] at h
  split at h
  · next text htext =>
    split_ifs at h with hempty
    rcases Option.map_eq_some_iff.mp h with ⟨⟨body, rest⟩, hbody, heq⟩
    obtain ⟨rfl, rfl, rfl⟩ := heq
    rw [← untilQuote_append hbody, ← htext, List.takeWhile_append_dropWhile,
      List.takeWhile_append_dropWhile]
  · contradiction

/-- What follows a pair is shorter than the tag. -/
theorem firstPair?_length {tag key body rest : List Char}
    (h : firstPair? tag = some (key, body, rest)) : rest.length < tag.length := by
  have hlength := congrArg List.length (eq_of_firstPair? h)
  simp only [List.length_append, List.length_cons] at hlength
  omega

/-- The literal of a key, without its quotes: that of its first pair, if the tag does not
    stop being a list of pairs before. -/
def literal? (key tag : List Char) : Option (List Char) :=
  match _h : firstPair? tag with
  | none => none
  | some (name, body, rest) => if name = key then some body else literal? key rest
termination_by tag.length
decreasing_by exact firstPair?_length _h

theorem literal?_eq (key tag : List Char) :
    literal? key tag = (firstPair? tag).bind fun (name, body, rest) =>
      if name = key then some body else literal? key rest := by
  rw [literal?]
  split <;> simp [*]

theorem literal?_of_firstPair? {tag key body rest : List Char}
    (h : firstPair? tag = some (key, body, rest)) : literal? key tag = some body := by
  rw [literal?_eq, h]
  exact if_pos rfl

/-- What a literal stands for, when its body is put between quotes. -/
def readBody? (body : List Char) : Option String :=
  (Json.readQuoted? ('"' :: body ++ ['"'])).map String.ofList

/-- A body stands for the characters of its pieces. -/
theorem readBody?_eq_some_iff {body : List Char} {value : String} :
    readBody? body = some value ↔
      ∃ ps : List Literal.Piece, body = ps.flatMap Literal.Piece.text ∧
        List.Forall₂ (fun p c => p.char? = some c) ps value.toList := by
  rw [readBody?, Option.map_eq_some_iff, ← Literal.readQuoted?_eq_some_iff]
  constructor
  · rintro ⟨text, htext, rfl⟩
    rwa [String.toList_ofList]
  · intro h
    exact ⟨value.toList, h, String.ofList_toList⟩

/-- The scan of a value and the cut behind it give the value with its quote. -/
theorem cut_of_untilQuote {text body rest : List Char}
    (h : untilQuote '"' '\\' false text = some (body, rest)) :
    cut ((utf8 body).length + 1) text = some (body ++ ['"'], rest) := by
  have hlength : (utf8 body).length + 1 = (utf8 (body ++ ['"'])).length := by
    rw [utf8_append, List.length_append]
    rfl
  have htext : text = (body ++ ['"']) ++ rest := by
    rw [untilQuote_append h, List.append_assoc, List.singleton_append]
  rw [hlength, htext, cut_utf8]

/-- What the lookup makes of the first pair. -/
theorem lookup_eq (key tag : List Char) :
    lookup key tag = (firstPair? tag).bind fun (name, body, rest) =>
      if name = key then readBody? body else lookup key rest := by
  rw [lookup, firstPair?]
  split
  · next text htext =>
    simp only [htext]
    by_cases hempty : ((tag.dropWhile (· = ' ')).takeWhile isKeyChar).isEmpty = true
    · rw [if_pos hempty, if_pos hempty]
      rfl
    · rw [if_neg hempty, if_neg hempty]
      -- The bytes that are counted are those of the body that is found by characters.
      have hclosing : closingQuote (bytes text) =
          (untilQuote '"' '\\' false text).map fun (body, _) => (utf8 body).length := by
        rw [bytes_eq_utf8, closingQuote_eq, untilQuote_utf8, Option.map_map]
        rfl
      cases hvalue : untilQuote '"' '\\' false text with
      | none =>
          rw [hvalue] at hclosing
          rw [hclosing]
          rfl
      | some value =>
          rcases value with ⟨body, rest⟩
          have hcut := cut_of_untilQuote hvalue
          rw [hvalue] at hclosing
          simp only [hclosing, Option.map_some]
          split
          · next hnone =>
            rw [hcut] at hnone
            contradiction
          · next hsome =>
            rw [hcut] at hsome
            obtain ⟨rfl, rfl⟩ := Prod.mk.inj (Option.some.inj hsome)
            rfl
  · next hnone =>
    split
    · next text htext => exact absurd htext (hnone text)
    · rfl

/-- A lookup finds the literal of the key and decodes it. -/
theorem lookup_eq_bind (key tag : List Char) :
    lookup key tag = (literal? key tag).bind readBody? := by
  fun_induction literal? key tag with
  | case1 tag hpair => rw [lookup_eq, hpair, Option.bind_none, Option.bind_none]
  | case2 tag body rest hpair =>
    rw [lookup_eq, hpair]
    exact if_pos rfl
  | case3 tag name body rest hpair hname ih =>
    rw [lookup_eq, hpair, ← ih]
    exact if_neg hname

end StructTag

end Go

end FunctionalOptions
