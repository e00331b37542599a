import FunctionalOptions.Proofs.Grammar.Literal
import FunctionalOptions.Proofs.Json.Quoted
import Mathlib.Algebra.Group.Nat.Defs

/-!
# Pieces of String Literals

A value in a tag is a string literal, and two notations for string literals meet there:
that of the language, for which tags are made, and that of the data format, by which they
are read here. Both write text between two quotes, with a backslash where a character
cannot or need not be written as it is. They differ in which escapes there are and in
what is text to begin with.

Both are described here over one set of pieces. A piece is a character or an escape, with
its digits as they are written; what it stands for, if anything, is said for each notation
by itself. So a literal is a row of pieces in both, and the question whether they agree
on it becomes one about single pieces.

For this the pieces must be the same in both, and they are. A piece that stands for
something in either notation can be told by the first characters of a text: the character
behind the backslash says which escape it is and thereby how many digits there are. Only
for a character that is named by its two halves the digits themselves have to be looked
at, since nobody reads the first half alone.

## Main definitions

* `Literal.Piece`: A character or an escape.
* `Literal.Piece.char?`: What a piece stands for in the data format.
* `Literal.Piece.bytes?`: What a piece stands for in the language.

## Theorems

* `Literal.first?_text`: A piece is told by the first characters.
* `Literal.pieces_unique`: A body is put together in one way only.
-/

namespace FunctionalOptions

namespace Literal

open Go (digits? escapeLetters utf8)

/-- A piece of a string literal: a character or an escape, with the digits it is written
    with. -/
inductive Piece where
  /-- A character as it is. -/
  | plain (c : Char)
  /-- A backslash and a letter or mark. -/
  | letter (c : Char)
  /-- The number of a character, or of half of one, in hexadecimal. -/
  | unit (digits : List Char)
  /-- The numbers of the two halves of a character. -/
  | pair (leading trailing : List Char)
  /-- The number of a character in twice as many digits. -/
  | long (digits : List Char)
  /-- The number of a byte in hexadecimal. -/
  | byte (digits : List Char)
  /-- The number of a byte in octal. -/
  | octal (digits : List Char)
deriving DecidableEq, Repr

/-- How a piece is written. -/
def Piece.text : Piece → List Char
  | .plain c => [c]
  | .letter c => ['\\', c]
  | .unit digits => '\\' :: 'u' :: digits
  | .pair leading trailing => '\\' :: 'u' :: (leading ++ '\\' :: 'u' :: trailing)
  | .long digits => '\\' :: 'U' :: digits
  | .byte digits => '\\' :: 'x' :: digits
  | .octal digits => '\\' :: digits

/-- The number that so many digits of a base write. -/
def number? (base count : Nat) (digits : List Char) : Option Nat :=
  match digits? base count 0 digits with
  | some (number, []) => some number
  | _ => none

/-- The characters that are named by a letter or mark in a string of the data format. -/
def jsonLetters : List (Char × Char) :=
  [('"', '"'), ('\\', '\\'), ('/', '/'), ('b', '\x08'), ('f', '\x0c'), ('n', '\n'), ('r', '\r'),
    ('t', '\t')]

/-- The character that a piece stands for in a string of the data format. A control
    character does not stand for itself, and half of a character for none. -/
def Piece.char? : Piece → Option Char
  | .plain c => if 0x20 ≤ c.toNat ∧ c ≠ '"' ∧ c ≠ '\\' then some c else none
  | .letter c => jsonLetters.lookup c
  | .unit digits =>
    (number? 16 4 digits).bind fun n => if n.isValidChar then some (Char.ofNat n) else none
  | .pair leading trailing =>
    (number? 16 4 leading).bind fun m => (number? 16 4 trailing).bind fun n =>
      if Json.isLeading m && Json.isTrailing n then some (Json.pairChar m n) else none
  | .long _ | .byte _ | .octal _ => none

/-- The bytes that a piece stands for in a string literal of the language. Only a line break
    does not stand for itself, and a character is not named by its halves. -/
def Piece.bytes? : Piece → Option (List UInt8)
  | .plain c => if c ≠ '"' ∧ c ≠ '\\' ∧ c ≠ '\n' then some (String.utf8EncodeChar c) else none
  | .letter c => (escapeLetters.lookup c).map fun byte => [byte]
  | .unit digits => (number? 16 4 digits).bind character?
  | .pair _ _ => none
  | .long digits => (number? 16 8 digits).bind character?
  | .byte digits => (number? 16 2 digits).bind byte?
  | .octal digits => (number? 8 3 digits).bind byte?
where
  character? (n : Nat) : Option (List UInt8) :=
    if n.isValidChar then some (String.utf8EncodeChar (Char.ofNat n)) else none
  byte? (n : Nat) : Option (List UInt8) :=
    if n < 256 then some [n.toUInt8] else none

/-! ## Digits -/

section Digits

variable {base count number n : Nat} {digits rest text : List Char}

theorem digits?_cons {c : Char} {value : Nat × List Char} :
    digits? base (count + 1) number (c :: text) = some value ↔
      ∃ digit, Text.hexDigit? c = some digit ∧ digit < base ∧
        digits? base count (number * base + digit) text = some value := by
  rw [digits?]
  cases Text.hexDigit? c with
  | none => simp
  | some digit => simp

/-- Reading so many digits in front of a text is reading these digits. -/
theorem digits?_eq_some_iff :
    digits? base count number text = some (n, rest) ↔
      ∃ digits, text = digits ++ rest ∧ digits? base count number digits = some (n, []) := by
  -- The number read so far changes from digit to digit.
  induction count generalizing number text with
  | zero =>
      simp only [digits?, Option.some.injEq, Prod.mk.injEq]
      constructor
      · rintro ⟨rfl, rfl⟩
        exact ⟨[], rfl, rfl, rfl⟩
      · rintro ⟨digits, rfl, rfl, rfl⟩
        exact ⟨rfl, rfl⟩
  | succ count ih =>
      cases text with
      | nil =>
          constructor
          · intro h
            contradiction
          · rintro ⟨digits, htext, hdigits⟩
            -- Without any text there are no digits.
            rw [(List.append_eq_nil_iff.mp htext.symm).1] at hdigits
            contradiction
      | cons c text =>
          rw [digits?_cons]
          constructor
          · rintro ⟨digit, hdigit, hlt, h⟩
            rcases ih.mp h with ⟨digits, rfl, hdigits⟩
            exact ⟨c :: digits, rfl, digits?_cons.mpr ⟨digit, hdigit, hlt, hdigits⟩⟩
          · rintro ⟨digits, htext, hdigits⟩
            cases digits with
            | nil => contradiction
            | cons d digits =>
                obtain ⟨rfl, rfl⟩ := List.cons.inj htext
                rcases digits?_cons.mp hdigits with ⟨digit, hdigit, hlt, h⟩
                exact ⟨digit, hdigit, hlt, ih.mpr ⟨digits, rfl, h⟩⟩

theorem number?_eq_some_iff :
    number? base count digits = some n ↔ digits? base count 0 digits = some (n, []) := by
  unfold number?
  split
  · next h => rw [h, Option.some.injEq, Option.some.injEq, Prod.mk.injEq, eq_self, and_true]
  · next h => exact iff_of_false (Option.some_ne_none n).symm (h n)

/-- What can be said of digits that write a number. -/
theorem of_digits? (h : digits? base count number digits = some (n, [])) :
    digits.length = count ∧
      (∀ c ∈ digits, ∃ digit, Text.hexDigit? c = some digit ∧ digit < base) ∧
      n < (number + 1) * base ^ count := by
  induction count generalizing number digits with
  | zero =>
      obtain ⟨rfl, rfl⟩ := Prod.mk.inj (Option.some.inj h)
      refine ⟨rfl, fun c hc => absurd hc List.not_mem_nil, ?_⟩
      rw [Nat.pow_zero, Nat.mul_one]
      exact Nat.lt_succ_self _
  | succ count ih =>
      cases digits with
      | nil => contradiction
      | cons c digits =>
          rcases digits?_cons.mp h with ⟨digit, hdigit, hlt, h⟩
          rcases ih h with ⟨hlength, hdigits, hn⟩
          refine ⟨congrArg Nat.succ hlength,
            List.forall_mem_cons.mpr ⟨⟨digit, hdigit, hlt⟩, hdigits⟩, Nat.lt_of_lt_of_le hn ?_⟩
          -- One more digit multiplies the bound by the base.
          rw [Nat.pow_succ', ← Nat.mul_assoc]
          exact Nat.mul_le_mul_right _ (by rw [Nat.add_mul]; omega)

theorem of_number? (h : number? base count digits = some n) :
    digits.length = count ∧
      (∀ c ∈ digits, ∃ digit, Text.hexDigit? c = some digit ∧ digit < base) ∧
      n < base ^ count := by
  have hdigits := of_digits? (number?_eq_some_iff.mp h)
  rwa [Nat.zero_add, Nat.one_mul] at hdigits

end Digits

/-! ## Telling pieces apart -/

/-- The piece means something in one of the two languages. -/
def Piece.Legal (p : Piece) : Prop :=
  p.char?.isSome ∨ p.bytes?.isSome

/-- The character is an octal digit. -/
def isOctal (c : Char) : Bool :=
  (Text.hexDigit? c).any (· < 8)

theorem mem_of_lookup {α : Type} {letters : List (Char × α)} {c : Char} {a : α}
    (h : letters.lookup c = some a) : (c, a) ∈ letters := by
  rcases List.lookup_eq_some_iff.mp h with ⟨before, after, rfl, -⟩
  exact List.mem_append_right _ List.mem_cons_self

/-- The letters that begin digits are not those that stand for a character. -/
theorem Piece.Legal.letter {c : Char} (h : (Piece.letter c).Legal) :
    c ≠ 'u' ∧ c ≠ 'U' ∧ c ≠ 'x' ∧ isOctal c = false := by
  have hjson : ∀ l ∈ jsonLetters, l.1 ≠ 'u' ∧ l.1 ≠ 'U' ∧ l.1 ≠ 'x' ∧ isOctal l.1 = false := by
    decide
  have hgo : ∀ l ∈ escapeLetters, l.1 ≠ 'u' ∧ l.1 ≠ 'U' ∧ l.1 ≠ 'x' ∧ isOctal l.1 = false := by
    decide
  rcases h with h | h
  · rcases Option.isSome_iff_exists.mp h with ⟨char, hchar⟩
    exact hjson _ (mem_of_lookup hchar)
  · rcases Option.isSome_iff_exists.mp h with ⟨bytes, hbytes⟩
    rcases Option.map_eq_some_iff.mp hbytes with ⟨byte, hbyte, -⟩
    exact hgo _ (mem_of_lookup hbyte)

/-- A character that stands for itself is no backslash. -/
theorem Piece.Legal.plain {c : Char} (h : (Piece.plain c).Legal) : c ≠ '\\' := by
  rcases h with h | h
  · exact (Option.ite_none_right_eq_some.mp (Option.isSome_iff_exists.mp h).choose_spec).1.2.2
  · exact (Option.ite_none_right_eq_some.mp (Option.isSome_iff_exists.mp h).choose_spec).1.2.1

/-- Four digits alone name a character and no half of one. -/
theorem Piece.Legal.unit {digits : List Char} (h : (Piece.unit digits).Legal) :
    ∃ n, number? 16 4 digits = some n ∧ n.isValidChar := by
  rcases h with h | h
  · rcases Option.isSome_iff_exists.mp h with ⟨char, hchar⟩
    rcases Option.bind_eq_some_iff.mp hchar with ⟨n, hn, hchar⟩
    exact ⟨n, hn, (Option.ite_none_right_eq_some.mp hchar).1⟩
  · rcases Option.isSome_iff_exists.mp h with ⟨bytes, hbytes⟩
    rcases Option.bind_eq_some_iff.mp hbytes with ⟨n, hn, hbytes⟩
    exact ⟨n, hn, (Option.ite_none_right_eq_some.mp hbytes).1⟩

/-- Octal digits are three, and the first of them is one. -/
theorem Piece.Legal.octal {digits : List Char} (h : (Piece.octal digits).Legal) :
    ∃ c more, digits = c :: more ∧ more.length = 2 ∧ isOctal c = true := by
  rcases Option.isSome_iff_exists.mp (h.resolve_left Bool.false_ne_true) with ⟨bytes, hbytes⟩
  rcases Option.bind_eq_some_iff.mp hbytes with ⟨n, hn, -⟩
  rcases of_number? hn with ⟨hlength, hdigits, -⟩
  cases digits with
  | nil => contradiction
  | cons c more =>
      rcases hdigits c List.mem_cons_self with ⟨digit, hdigit, hlt⟩
      refine ⟨c, more, rfl, Nat.succ.inj hlength, ?_⟩
      rw [isOctal, hdigit]
      exact decide_eq_true hlt

theorem ne_of_isOctal {c : Char} (h : isOctal c = true) : c ≠ 'u' ∧ c ≠ 'U' ∧ c ≠ 'x' := by
  refine ⟨?_, ?_, ?_⟩ <;>
    · rintro rfl
      exact absurd h (by decide)

theorem isLeading_of_isValidChar {n : Nat} (h : n.isValidChar) :
    Json.isLeading n = false ∧ Json.isTrailing n = false := by
  unfold Json.isLeading Json.isTrailing
  rcases h with h | ⟨h, -⟩ <;> constructor <;> simp <;> omega

/-- The piece behind a backslash, told by the first characters. -/
def escaped? : List Char → Option (Piece × List Char)
  | [] => none
  | c :: text =>
    if c = 'u' then
      if (number? 16 4 (text.take 4)).any Json.isLeading then
        some (.pair (text.take 4) (((text.drop 4).drop 2).take 4), ((text.drop 4).drop 2).drop 4)
      else some (.unit (text.take 4), text.drop 4)
    else if c = 'U' then some (.long (text.take 8), text.drop 8)
    else if c = 'x' then some (.byte (text.take 2), text.drop 2)
    else if isOctal c then some (.octal (c :: text.take 2), text.drop 2)
    else some (.letter c, text)

/-- The piece a text begins with, if it begins with one that means something, and what
    follows it. -/
def first? : List Char → Option (Piece × List Char)
  | [] => none
  | c :: text => if c = '\\' then escaped? text else some (.plain c, text)

/-- A piece that means something is told by the first characters, whatever follows. -/
theorem first?_text {p : Piece} (h : p.Legal) (rest : List Char) :
    first? (p.text ++ rest) = some (p, rest) := by
  -- In each case the tests in front of the right one fail, and the digits that are taken
  -- are those of the piece, since their number is fixed.
  cases p with
  | plain c => exact if_neg h.plain
  | letter c =>
      rcases h.letter with ⟨hu, hU, hx, hoctal⟩
      rw [Piece.text, List.cons_append, List.singleton_append, first?, if_pos rfl, escaped?,
        if_neg hu, if_neg hU, if_neg hx, hoctal]
      rfl
  | unit digits =>
      rcases h.unit with ⟨n, hn, hvalid⟩
      have hlength := (of_number? hn).1
      rw [Piece.text, List.cons_append, List.cons_append, first?, if_pos rfl, escaped?,
        if_pos rfl, List.take_left' hlength, List.drop_left' hlength, hn, Option.any_some,
        (isLeading_of_isValidChar hvalid).1]
      rfl
  | pair leading trailing =>
      rcases Option.isSome_iff_exists.mp (h.resolve_right Bool.false_ne_true) with ⟨char, hchar⟩
      rcases Option.bind_eq_some_iff.mp hchar with ⟨m, hm, hchar⟩
      rcases Option.bind_eq_some_iff.mp hchar with ⟨n, hn, hchar⟩
      have hhalves := (Option.ite_none_right_eq_some.mp hchar).1
      rw [Bool.and_eq_true] at hhalves
      have hleading := (of_number? hm).1
      rw [Piece.text, List.cons_append, List.cons_append, List.append_assoc, List.cons_append,
        List.cons_append, first?, if_pos rfl, escaped?, if_pos rfl, List.take_left' hleading,
        List.drop_left' hleading, hm, Option.any_some, if_pos hhalves.1, List.drop_succ_cons,
        List.drop_succ_cons, List.drop_zero, List.take_left' (of_number? hn).1,
        List.drop_left' (of_number? hn).1]
  | long digits =>
      rcases Option.isSome_iff_exists.mp (h.resolve_left Bool.false_ne_true) with ⟨bytes, hbytes⟩
      rcases Option.bind_eq_some_iff.mp hbytes with ⟨n, hn, -⟩
      have hlength := (of_number? hn).1
      rw [Piece.text, List.cons_append, List.cons_append, first?, if_pos rfl, escaped?,
        if_neg (by decide), if_pos rfl, List.take_left' hlength, List.drop_left' hlength]
  | byte digits =>
      rcases Option.isSome_iff_exists.mp (h.resolve_left Bool.false_ne_true) with ⟨bytes, hbytes⟩
      rcases Option.bind_eq_some_iff.mp hbytes with ⟨n, hn, -⟩
      have hlength := (of_number? hn).1
      rw [Piece.text, List.cons_append, List.cons_append, first?, if_pos rfl, escaped?,
        if_neg (by decide), if_neg (by decide), if_pos rfl, List.take_left' hlength,
        List.drop_left' hlength]
  | octal digits =>
      rcases h.octal with ⟨c, more, rfl, hlength, hoctal⟩
      rcases ne_of_isOctal hoctal with ⟨hu, hU, hx⟩
      rw [Piece.text, List.cons_append, List.cons_append, first?, if_pos rfl, escaped?,
        if_neg hu, if_neg hU, if_neg hx, if_pos hoctal, List.take_left' hlength,
        List.drop_left' hlength]

/-- A body is put together from pieces that mean something in one way only. -/
theorem pieces_unique {ps qs : List Piece} (hps : ∀ p ∈ ps, p.Legal) (hqs : ∀ q ∈ qs, q.Legal)
    (h : ps.flatMap Piece.text = qs.flatMap Piece.text) : ps = qs := by
  have hne (p : Piece) (more : List Char) : p.text ++ more ≠ [] := by
    cases p <;> exact List.cons_ne_nil _ _
  induction ps generalizing qs with
  | nil =>
      cases qs with
      | nil => rfl
      | cons q qs => exact absurd h.symm (hne q _)
  | cons p ps ih =>
      cases qs with
      | nil => exact absurd h (hne p _)
      | cons q qs =>
          rcases List.forall_mem_cons.mp hps with ⟨hp, hps'⟩
          rcases List.forall_mem_cons.mp hqs with ⟨hq, hqs'⟩
          rw [List.flatMap_cons, List.flatMap_cons] at h
          -- Both are the first piece of the same text.
          have hfirst := first?_text hp (ps.flatMap Piece.text)
          rw [h, first?_text hq] at hfirst
          obtain ⟨rfl, hrest⟩ := Prod.mk.inj (Option.some.inj hfirst)
          rw [ih hps' hqs' hrest.symm]

end Literal

end FunctionalOptions
