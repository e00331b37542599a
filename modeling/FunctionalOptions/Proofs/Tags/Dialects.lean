import FunctionalOptions.Proofs.Tags.Pieces
import Mathlib.Data.List.Forall2

/-!
# Two Notations for Strings

What the readers of both notations make of a literal, said in terms of its pieces: a
literal is read exactly if it is a row of pieces that stand for something, and it is read
as what they stand for one after the other.

The reader of the language takes one piece after the other anyway. That of the data format
does not. It gathers the units of the whole literal first, so that the two halves of a
character come out as two units, and joins them afterwards. A piece is therefore scanned
as the units from which its character is joined.

A piece that both notations have stands for the same in both. What only one of them has is
little: a slash behind a backslash and pairs of halves on the one side; control characters
as they are, the letters of two of them, long numbers of characters and numbers of bytes
on the other.

## Main definitions

* `Literal.Piece.jsonOnly`, `Literal.Piece.goOnly`: The pieces that one notation has and
  the other one lacks.

## Theorems

* `Literal.readQuoted?_eq_some_iff`: What the literals of the data format are.
* `Literal.readQuoted_eq_some_iff`: What the literals of the language are.
* `Literal.bytes_of_char?`, `Literal.flatten_eq_utf8`: What both have means the same.
* `Literal.bytes?_eq_none_iff`, `Literal.char?_eq_none_iff`: What only one of them has.
-/

namespace FunctionalOptions

namespace Literal

open Go (digits? escape? escapeLetters byteEscape? charEscape? readQuoted utf8)
open Json (CodeUnit escapeLetter? hexNumber? isLeading isTrailing join? pairChar readQuoted?
  scanQuoted)

/-! ## Readings piece by piece -/

section Pieces

variable {α : Type} {f : Piece → Option α} {ps : List Piece} {values : List α}

theorem isSome_of_forall₂ (h : List.Forall₂ (fun p value => f p = some value) ps values) :
    ∀ p ∈ ps, (f p).isSome := by
  induction h with
  | nil => exact fun p hp => absurd hp List.not_mem_nil
  | cons hvalue _ ih => exact List.forall_mem_cons.mpr ⟨Option.isSome_of_eq_some hvalue, ih⟩

theorem exists_forall₂ (h : ∀ p ∈ ps, (f p).isSome) :
    ∃ values, List.Forall₂ (fun p value => f p = some value) ps values := by
  induction ps with
  | nil => exact ⟨[], .nil⟩
  | cons p ps ih =>
      rcases List.forall_mem_cons.mp h with ⟨hp, hps⟩
      rcases Option.isSome_iff_exists.mp hp with ⟨value, hvalue⟩
      rcases ih hps with ⟨values, hvalues⟩
      exact ⟨value :: values, .cons hvalue hvalues⟩

end Pieces

/-! ## The data format -/

theorem hexDigit?_lt {c : Char} {digit : Nat} (h : Text.hexDigit? c = some digit) :
    digit < 16 := by
  unfold Text.hexDigit? at h
  split_ifs at h with hdigit hsmall hcapital
  · have hle : c.toNat ≤ '9'.toNat := hdigit.2
    have hvalue := Option.some.inj h
    simp only [Char.reduceToNat] at hle hvalue
    omega
  · have hle : c.toNat ≤ 'f'.toNat := hsmall.2
    have hvalue := Option.some.inj h
    simp only [Char.reduceToNat] at hle hvalue
    omega
  · have hle : c.toNat ≤ 'F'.toNat := hcapital.2
    have hvalue := Option.some.inj h
    simp only [Char.reduceToNat] at hle hvalue
    omega

/-- Every hexadecimal digit is below the base. -/
theorem hexDigits?_cons (count number : Nat) (c : Char) (text : List Char) :
    digits? 16 (count + 1) number (c :: text) = (Text.hexDigit? c).bind fun digit =>
      digits? 16 count (number * 16 + digit) text := by
  rw [digits?]
  cases hdigit : Text.hexDigit? c with
  | none => rfl
  | some digit => exact if_pos (hexDigit?_lt hdigit)

theorem hexNumber?_eq (a b c d : Char) : hexNumber? a b c d = number? 16 4 [a, b, c, d] := by
  unfold hexNumber? number?
  simp only [hexDigits?_cons, Nat.zero_mul, Nat.zero_add]
  cases Text.hexDigit? a with
  | none => rfl
  | some a =>
      cases Text.hexDigit? b with
      | none => rfl
      | some b =>
          cases Text.hexDigit? c with
          | none => rfl
          | some c => cases Text.hexDigit? d <;> rfl

theorem escapeLetter?_eq (c : Char) : escapeLetter? c = jsonLetters.lookup c := by
  unfold escapeLetter?
  split
  case h_9 => exact (List.lookup_eq_none_iff.mpr (by simp_all [jsonLetters])).symm
  all_goals rfl

/-- The unit that a piece is scanned as, if it is scanned as a single one. -/
def Piece.unit? : Piece → Option CodeUnit
  | .plain c => (Piece.plain c).char?.map .scalar
  | .letter c => (Piece.letter c).char?.map .scalar
  | .unit digits => (number? 16 4 digits).map .ofNat
  | .pair _ _ | .long _ | .byte _ | .octal _ => none

theorem ofNat_eq_scalar {n : Nat} {c : Char} (hn : n < 0x10000)
    (h : CodeUnit.ofNat n = .scalar c) : n.isValidChar ∧ Char.ofNat n = c := by
  unfold CodeUnit.ofNat at h
  split_ifs at h with hhalf
  refine ⟨?_, CodeUnit.scalar.inj h⟩
  -- Of the numbers of four digits only the halves stand for no character.
  simp only [isLeading, isTrailing, Bool.or_eq_true, Bool.and_eq_true, decide_eq_true_eq] at hhalf
  unfold Nat.isValidChar
  omega

/-- A piece that is scanned as a character stands for it. -/
theorem char?_of_unit? {p : Piece} {c : Char} (h : p.unit? = some (.scalar c)) :
    p.char? = some c := by
  cases p with
  | plain d =>
      rcases Option.map_eq_some_iff.mp h with ⟨c, hc, hunit⟩
      rwa [← CodeUnit.scalar.inj hunit]
  | letter d =>
      rcases Option.map_eq_some_iff.mp h with ⟨c, hc, hunit⟩
      rwa [← CodeUnit.scalar.inj hunit]
  | unit digits =>
      rcases Option.map_eq_some_iff.mp h with ⟨n, hn, hunit⟩
      rcases ofNat_eq_scalar (of_number? hn).2.2 hunit with ⟨hvalid, hc⟩
      rw [Piece.char?, hn, Option.bind_some, if_pos hvalid, hc]
  | pair | long | byte | octal => contradiction

/-- A piece that is scanned as half of a character is its number. -/
theorem exists_digits_of_unit? {p : Piece} {n : Nat} (h : p.unit? = some (.half n)) :
    ∃ digits, p = .unit digits ∧ number? 16 4 digits = some n := by
  cases p with
  | plain d =>
      rcases Option.map_eq_some_iff.mp h with ⟨c, hc, hunit⟩
      contradiction
  | letter d =>
      rcases Option.map_eq_some_iff.mp h with ⟨c, hc, hunit⟩
      contradiction
  | unit digits =>
      rcases Option.map_eq_some_iff.mp h with ⟨m, hm, hunit⟩
      -- The characters have been sorted out, and what is left is a number.
      unfold CodeUnit.ofNat at hunit
      split_ifs at hunit
      exact ⟨digits, rfl, by rw [hm, CodeUnit.half.inj hunit]⟩
  | pair | long | byte | octal => contradiction

/-- A literal that is scanned to its end consists of pieces. -/
theorem exists_pieces_of_scanQuoted {text rest : List Char}
    (h : (scanQuoted text).rest = .ok rest) :
    ∃ ps : List Piece, text = ps.flatMap Piece.text ++ '"' :: rest ∧
      List.Forall₂ (fun p unit => p.unit? = some unit) ps (scanQuoted text).units := by
  -- The scan has an answer of its own for each way to go wrong. The other four cases are the
  -- quote at the end and the three pieces that are scanned as one unit.
  fun_induction scanQuoted text with
  | case1 | case3 | case5 | case6 | case8 | case9 => contradiction
  | case2 more =>
    obtain rfl := Except.ok.inj h
    exact ⟨[], rfl, .nil⟩
  | case4 a b c d more n hn ih =>
    rcases ih h with ⟨ps, rfl, hps⟩
    have hunit : (Piece.unit [a, b, c, d]).unit? = some (.ofNat n) := by
      rw [Piece.unit?, ← hexNumber?_eq, hn, Option.map_some]
    exact ⟨.unit [a, b, c, d] :: ps, rfl, .cons hunit hps⟩
  | case7 letter more _ _ c hc ih =>
    rcases ih h with ⟨ps, rfl, hps⟩
    have hunit : (Piece.letter letter).unit? = some (.scalar c) := by
      rw [Piece.unit?, Piece.char?, ← escapeLetter?_eq, hc, Option.map_some]
    exact ⟨.letter letter :: ps, rfl, .cons hunit hps⟩
  | case10 c more hquote hend _ _ hletter hcontrol ih =>
    have hslash : c ≠ '\\' := by
      intro hslash
      cases more with
      | nil => exact hend hslash rfl
      | cons letter more => exact hletter letter more hslash rfl
    rcases ih h with ⟨ps, rfl, hps⟩
    have hunit : (Piece.plain c).unit? = some (.scalar c) := by
      rw [Piece.unit?, Piece.char?, if_pos ⟨Nat.le_of_not_lt hcontrol, hquote, hslash⟩,
        Option.map_some]
    exact ⟨.plain c :: ps, rfl, .cons hunit hps⟩

/-- The text of a body joins the numbers of two halves to one piece. -/
theorem exists_pieces_of_join? {ps : List Piece} {units : List CodeUnit} {text : List Char}
    (hps : List.Forall₂ (fun p unit => p.unit? = some unit) ps units)
    (h : join? units = some text) :
    ∃ qs : List Piece, ps.flatMap Piece.text = qs.flatMap Piece.text ∧
      List.Forall₂ (fun q c => q.char? = some c) qs text := by
  -- Two pieces become one where two units are joined, and nowhere else.
  fun_induction join? units generalizing ps text with
  | case1 =>
    obtain rfl := Option.some.inj h
    rcases hps with ⟨⟩
    exact ⟨[], rfl, .nil⟩
  | case2 c units ih =>
    rcases Option.map_eq_some_iff.mp h with ⟨text, htext, rfl⟩
    rcases hps with _ | ⟨hp, hps⟩
    rcases ih hps htext with ⟨qs, hqs, hchars⟩
    exact ⟨_ :: qs, congrArg (_ ++ ·) hqs, .cons (char?_of_unit? hp) hchars⟩
  | case3 leading trailing units hhalves ih =>
    rcases Option.map_eq_some_iff.mp h with ⟨text, htext, rfl⟩
    rcases hps with _ | ⟨hp, _ | ⟨hq, hps⟩⟩
    rcases exists_digits_of_unit? hp with ⟨digits, rfl, hleading⟩
    rcases exists_digits_of_unit? hq with ⟨others, rfl, htrailing⟩
    rcases ih hps htext with ⟨qs, hqs, hchars⟩
    refine ⟨.pair digits others :: qs, ?_, .cons ?_ hchars⟩
    · simp only [List.flatMap_cons, Piece.text, hqs, List.cons_append, List.append_assoc]
    · rw [Piece.char?, hleading, Option.bind_some, htrailing, Option.bind_some, if_pos hhalves]
  | case4 => contradiction
  | case5 => contradiction

/-- Four digits are scanned as the unit of their number. -/
theorem scanQuoted_unit {digits : List Char} {n : Nat} (h : number? 16 4 digits = some n)
    (rest : List Char) :
    scanQuoted ('\\' :: 'u' :: (digits ++ rest)) = (scanQuoted rest).push (.ofNat n) := by
  match digits, (of_number? h).1 with
  | [a, b, c, d], _ =>
    rw [← hexNumber?_eq] at h
    simp only [List.cons_append, List.nil_append, scanQuoted, h]

/-- A piece is scanned as what is joined to its character, whatever follows. -/
theorem scanQuoted_piece {p : Piece} {c : Char} (h : p.char? = some c) :
    ∃ units, (∀ rest, scanQuoted (p.text ++ rest) =
        ⟨units ++ (scanQuoted rest).units, (scanQuoted rest).rest⟩) ∧
      ∀ more, join? (units ++ more) = (join? more).map (c :: ·) := by
  cases p with
  | plain d =>
      rcases Option.ite_none_right_eq_some.mp h with ⟨⟨hcontrol, hquote, hslash⟩, hc⟩
      obtain rfl := Option.some.inj hc
      exact ⟨[.scalar d], Json.scanQuoted_plain hquote hslash (Nat.not_lt_of_le hcontrol),
        fun _ => rfl⟩
  | letter d =>
      -- The scan looks for the digits of a unit first.
      have hu := (Piece.Legal.letter (Or.inl (Option.isSome_iff_exists.mpr ⟨c, h⟩))).1
      refine ⟨[.scalar c], fun rest => ?_, fun _ => rfl⟩
      rw [Piece.text, List.cons_append, List.singleton_append, scanQuoted, escapeLetter?_eq]
      · rw [show jsonLetters.lookup d = some c from h]
        rfl
      · exact fun _ _ _ _ _ hd => absurd hd hu
      · exact fun hd => absurd hd hu
  | unit digits =>
      rcases Option.bind_eq_some_iff.mp h with ⟨n, hn, hc⟩
      rcases Option.ite_none_right_eq_some.mp hc with ⟨hvalid, hc⟩
      obtain rfl := Option.some.inj hc
      rcases isLeading_of_isValidChar hvalid with ⟨hleading, htrailing⟩
      have hunit : CodeUnit.ofNat n = .scalar (Char.ofNat n) := by
        rw [CodeUnit.ofNat, hleading, htrailing]
        rfl
      refine ⟨[.scalar (Char.ofNat n)], fun rest => ?_, fun _ => rfl⟩
      rw [Piece.text, List.cons_append, List.cons_append, scanQuoted_unit hn, hunit]
      rfl
  | pair leading trailing =>
      rcases Option.bind_eq_some_iff.mp h with ⟨m, hm, h⟩
      rcases Option.bind_eq_some_iff.mp h with ⟨n, hn, hc⟩
      rcases Option.ite_none_right_eq_some.mp hc with ⟨hhalves, hc⟩
      rcases Bool.and_eq_true_iff.mp hhalves with ⟨hleading, htrailing⟩
      have hfirst : CodeUnit.ofNat m = .half m := by
        rw [CodeUnit.ofNat, hleading, Bool.true_or, if_pos rfl]
      have hsecond : CodeUnit.ofNat n = .half n := by
        rw [CodeUnit.ofNat, htrailing, Bool.or_true, if_pos rfl]
      refine ⟨[.half m, .half n], fun rest => ?_, fun more => ?_⟩
      · rw [Piece.text, List.cons_append, List.cons_append, List.append_assoc,
          scanQuoted_unit hm, List.cons_append, List.cons_append, scanQuoted_unit hn, hfirst,
          hsecond]
        rfl
      · rw [List.cons_append, List.singleton_append, join?, if_pos hhalves, Option.some.inj hc]
  | long | byte | octal => contradiction

/-- A literal of the data format is a body of its pieces. -/
theorem readQuoted?_eq_some_iff (body text : List Char) :
    readQuoted? ('"' :: body ++ ['"']) = some text ↔
      ∃ ps : List Piece, body = ps.flatMap Piece.text ∧
        List.Forall₂ (fun p c => p.char? = some c) ps text := by
  constructor
  · intro h
    rw [List.cons_append, readQuoted?] at h
    split at h
    · next units hscan =>
      have hrest : (scanQuoted (body ++ ['"'])).rest = .ok [] := by rw [hscan]
      rcases exists_pieces_of_scanQuoted hrest with ⟨ps, hbody, hps⟩
      rw [hscan] at hps
      -- First the units are read off, and then they are joined.
      rcases exists_pieces_of_join? hps h with ⟨qs, hqs, hchars⟩
      exact ⟨qs, hqs ▸ List.append_cancel_right hbody, hchars⟩
    · contradiction
  · rintro ⟨ps, rfl, hps⟩
    -- The units cannot be read off the pieces alone, so both passes are followed at once.
    have hscan : ∃ units, scanQuoted (ps.flatMap Piece.text ++ ['"']) = ⟨units, .ok []⟩ ∧
        join? units = some text := by
      induction hps with
      | nil => exact ⟨[], rfl, rfl⟩
      | @cons p c ps text hp _ ih =>
          rcases ih with ⟨units, hscan, hjoin⟩
          rcases scanQuoted_piece hp with ⟨more, hpiece, hchar⟩
          refine ⟨more ++ units, ?_, ?_⟩
          · rw [List.flatMap_cons, List.append_assoc, hpiece, hscan]
          · rw [hchar, hjoin, Option.map_some]
    rcases hscan with ⟨units, hscan, hjoin⟩
    rw [List.cons_append, readQuoted?, hscan]
    exact hjoin

/-! ## The language -/

section Language

variable {base count : Nat} {text rest : List Char} {bytes : List UInt8}

/-- What digits name is read from a text that begins with them, if they name anything. -/
theorem bind_digits?_eq_some_iff (accepts : Nat → Prop) [DecidablePred accepts]
    (value : Nat → List UInt8) :
    ((digits? base count 0 text).bind fun (n, rest) =>
        if accepts n then some (value n, rest) else none) = some (bytes, rest) ↔
      ∃ digits, text = digits ++ rest ∧
        ((number? base count digits).bind fun n =>
          if accepts n then some (value n) else none) = some bytes := by
  constructor
  · intro h
    rcases Option.bind_eq_some_iff.mp h with ⟨⟨n, rest'⟩, hn, h⟩
    rcases Option.ite_none_right_eq_some.mp h with ⟨haccepts, h⟩
    obtain ⟨rfl, rfl⟩ := Prod.mk.inj (Option.some.inj h)
    rcases digits?_eq_some_iff.mp hn with ⟨digits, rfl, hdigits⟩
    exact ⟨digits, rfl, Option.bind_eq_some_iff.mpr
      ⟨n, number?_eq_some_iff.mpr hdigits, if_pos haccepts⟩⟩
  · rintro ⟨digits, rfl, h⟩
    rcases Option.bind_eq_some_iff.mp h with ⟨n, hn, h⟩
    rcases Option.ite_none_right_eq_some.mp h with ⟨haccepts, h⟩
    rw [digits?_eq_some_iff.mpr ⟨digits, rfl, number?_eq_some_iff.mp hn⟩, Option.bind_some,
      ← Option.some.inj h]
    exact if_pos haccepts

theorem byteEscape?_eq_some_iff :
    byteEscape? base count text = some (bytes, rest) ↔
      ∃ digits, text = digits ++ rest ∧
        (number? base count digits).bind Piece.bytes?.byte? = some bytes :=
  bind_digits?_eq_some_iff (· < 256) fun n => [n.toUInt8]

theorem charEscape?_eq_some_iff :
    charEscape? count text = some (bytes, rest) ↔
      ∃ digits, text = digits ++ rest ∧
        (number? 16 count digits).bind Piece.bytes?.character? = some bytes :=
  bind_digits?_eq_some_iff Nat.isValidChar fun n => String.utf8EncodeChar (Char.ofNat n)

/-- An escape is a piece behind its backslash. -/
theorem exists_piece_of_escape? (h : escape? text = some (bytes, rest)) :
    ∃ p : Piece, '\\' :: text = p.text ++ rest ∧ p.bytes? = some bytes := by
  unfold escape? at h
  -- A letter says how many digits follow, or stands for a byte, or is an octal digit itself.
  split at h
  · contradiction
  · rcases byteEscape?_eq_some_iff.mp h with ⟨digits, rfl, hdigits⟩
    exact ⟨.byte digits, rfl, hdigits⟩
  · rcases charEscape?_eq_some_iff.mp h with ⟨digits, rfl, hdigits⟩
    exact ⟨.unit digits, rfl, hdigits⟩
  · rcases charEscape?_eq_some_iff.mp h with ⟨digits, rfl, hdigits⟩
    exact ⟨.long digits, rfl, hdigits⟩
  · next c more _ _ _ =>
    split at h
    · next byte hbyte =>
      obtain ⟨rfl, rfl⟩ := Prod.mk.inj (Option.some.inj h)
      exact ⟨.letter c, rfl, by rw [Piece.bytes?, hbyte, Option.map_some]⟩
    · rcases byteEscape?_eq_some_iff.mp h with ⟨digits, hmore, hdigits⟩
      exact ⟨.octal digits, congrArg _ hmore, hdigits⟩

/-- A literal that is read to its end consists of pieces. -/
theorem exists_pieces_of_readQuoted (h : readQuoted text = some (bytes, rest)) :
    ∃ (ps : List Piece) (values : List (List UInt8)),
      text = ps.flatMap Piece.text ++ '"' :: rest ∧
        List.Forall₂ (fun p value => p.bytes? = some value) ps values ∧
          bytes = values.flatten := by
  fun_induction readQuoted text generalizing bytes with
  | case1 | case3 | case4 => contradiction
  | case2 =>
    obtain ⟨rfl, rfl⟩ := Prod.mk.inj (Option.some.inj h)
    exact ⟨[], [], rfl, .nil, rfl⟩
  | case5 text value middle hescape ih =>
    rcases Option.map_eq_some_iff.mp h with ⟨⟨others, rest'⟩, hothers, heq⟩
    obtain ⟨rfl, rfl⟩ := Prod.mk.inj heq
    -- The escape is one piece, and those behind it are there already.
    rcases exists_piece_of_escape? hescape with ⟨p, htext, hp⟩
    rcases ih hothers with ⟨ps, values, rfl, hps, rfl⟩
    refine ⟨p :: ps, value :: values, ?_, .cons hp hps, rfl⟩
    rw [htext, List.flatMap_cons, List.append_assoc]
  | case6 c text hquote hline hslash ih =>
    rcases Option.map_eq_some_iff.mp h with ⟨⟨others, rest'⟩, hothers, heq⟩
    obtain ⟨rfl, rfl⟩ := Prod.mk.inj heq
    rcases ih hothers with ⟨ps, values, rfl, hps, rfl⟩
    exact ⟨.plain c :: ps, String.utf8EncodeChar c :: values, rfl,
      .cons (if_pos ⟨hquote, hslash, hline⟩) hps, rfl⟩

theorem readQuoted_escape (h : escape? text = some (bytes, rest)) :
    readQuoted ('\\' :: text) = (readQuoted rest).map fun (others, rest) =>
      (bytes ++ others, rest) := by
  rw [readQuoted]
  split
  · next hnone => rw [h] at hnone; contradiction
  · next hsome =>
    rw [h] at hsome
    obtain ⟨rfl, rfl⟩ := Prod.mk.inj (Option.some.inj hsome)
    rfl

theorem escape?_letter {c : Char} {byte : UInt8} (hu : c ≠ 'u') (hU : c ≠ 'U') (hx : c ≠ 'x')
    (hletter : escapeLetters.lookup c = some byte) (rest : List Char) :
    escape? (c :: rest) = some ([byte], rest) := by
  rw [escape?, hletter]
  · exact hx
  · exact hu
  · exact hU

theorem escape?_octal {c : Char} (hu : c ≠ 'u') (hU : c ≠ 'U') (hx : c ≠ 'x')
    (hletter : escapeLetters.lookup c = none) (rest : List Char) :
    escape? (c :: rest) = byteEscape? 8 3 (c :: rest) := by
  rw [escape?, hletter]
  · exact hx
  · exact hu
  · exact hU

/-- A piece is read as its bytes, whatever follows. -/
theorem readQuoted_piece {p : Piece} (h : p.bytes? = some bytes) (rest : List Char) :
    readQuoted (p.text ++ rest) = (readQuoted rest).map fun (others, rest) =>
      (bytes ++ others, rest) := by
  cases p with
  | plain c =>
      rcases Option.ite_none_right_eq_some.mp h with ⟨hplain, hbytes⟩
      obtain rfl := Option.some.inj hbytes
      exact Go.readQuoted_cons hplain rest
  | letter c =>
      rcases Piece.Legal.letter (Or.inr (Option.isSome_iff_exists.mpr ⟨bytes, h⟩)) with
        ⟨hu, hU, hx, -⟩
      rcases Option.map_eq_some_iff.mp h with ⟨byte, hbyte, rfl⟩
      exact readQuoted_escape (escape?_letter hu hU hx hbyte rest)
  | unit digits =>
      exact readQuoted_escape (charEscape?_eq_some_iff.mpr ⟨digits, rfl, h⟩)
  | pair => contradiction
  | long digits =>
      exact readQuoted_escape (charEscape?_eq_some_iff.mpr ⟨digits, rfl, h⟩)
  | byte digits =>
      exact readQuoted_escape (byteEscape?_eq_some_iff.mpr ⟨digits, rfl, h⟩)
  | octal digits =>
      rcases Piece.Legal.octal (Or.inr (Option.isSome_iff_exists.mpr ⟨bytes, h⟩)) with
        ⟨c, more, rfl, -, hoctal⟩
      -- The first digit is no letter that has a meaning, so three digits are read.
      rcases ne_of_isOctal hoctal with ⟨hu, hU, hx⟩
      cases hletter : escapeLetters.lookup c with
      | none =>
          exact readQuoted_escape ((escape?_octal hu hU hx hletter _).trans
            (byteEscape?_eq_some_iff.mpr ⟨_, rfl, h⟩))
      | some byte =>
          -- No letter is an octal digit.
          have hlegal : (Piece.letter c).Legal :=
            Or.inr (Option.isSome_iff_exists.mpr ⟨[byte], by rw [Piece.bytes?, hletter]; rfl⟩)
          rw [hlegal.letter.2.2.2] at hoctal
          exact absurd hoctal Bool.false_ne_true

/-- A literal of the language is a body of its pieces. -/
theorem readQuoted_eq_some_iff :
    readQuoted text = some (bytes, rest) ↔
      ∃ (ps : List Piece) (values : List (List UInt8)),
        text = ps.flatMap Piece.text ++ '"' :: rest ∧
          List.Forall₂ (fun p value => p.bytes? = some value) ps values ∧
            bytes = values.flatten := by
  constructor
  · exact exists_pieces_of_readQuoted
  · rintro ⟨ps, values, rfl, hps, rfl⟩
    induction hps with
    | nil => rw [List.flatMap_nil, List.nil_append, readQuoted]; rfl
    | @cons p value ps values hp _ ih =>
        rw [List.flatMap_cons, List.append_assoc, readQuoted_piece hp, ih, Option.map_some]
        rfl

end Language

/-! ## What they have in common -/

theorem bytes_of_letters {c char : Char} {byte : UInt8} (hchar : jsonLetters.lookup c = some char)
    (hbyte : escapeLetters.lookup c = some byte) : [byte] = String.utf8EncodeChar char := by
  -- Both notations have only a few letters.
  have htable : ∀ l ∈ jsonLetters, ∀ m ∈ escapeLetters, l.1 = m.1 →
      [m.2] = String.utf8EncodeChar l.2 := by
    decide
  exact htable _ (mem_of_lookup hchar) _ (mem_of_lookup hbyte) rfl

/-- A piece that means something in both languages means the same in both. -/
theorem bytes_of_char? {p : Piece} {c : Char} {bytes : List UInt8} (hchar : p.char? = some c)
    (hbytes : p.bytes? = some bytes) : bytes = String.utf8EncodeChar c := by
  cases p with
  | plain d =>
      rw [← Option.some.inj (Option.ite_none_right_eq_some.mp hchar).2,
        ← Option.some.inj (Option.ite_none_right_eq_some.mp hbytes).2]
  | letter d =>
      rcases Option.map_eq_some_iff.mp hbytes with ⟨byte, hbyte, rfl⟩
      exact bytes_of_letters hchar hbyte
  | unit digits =>
      rcases Option.bind_eq_some_iff.mp hchar with ⟨n, hn, hchar⟩
      rcases Option.bind_eq_some_iff.mp hbytes with ⟨m, hm, hbytes⟩
      -- Both read the same number from the four digits.
      obtain rfl := Option.some.inj (hn.symm.trans hm)
      rw [← Option.some.inj (Option.ite_none_right_eq_some.mp hchar).2,
        ← Option.some.inj (Option.ite_none_right_eq_some.mp hbytes).2]
  | pair => contradiction
  | long | byte | octal => contradiction

/-- So does a body. -/
theorem flatten_eq_utf8 {ps : List Piece} {text : List Char} {values : List (List UInt8)}
    (hchars : List.Forall₂ (fun p c => p.char? = some c) ps text)
    (hvalues : List.Forall₂ (fun p value => p.bytes? = some value) ps values) :
    values.flatten = utf8 text := by
  induction hchars generalizing values with
  | nil =>
      rcases hvalues with ⟨⟩
      rfl
  | cons hchar _ ih =>
      rcases hvalues with _ | ⟨hbytes, hvalues⟩
      rw [List.flatten_cons, bytes_of_char? hchar hbytes, ih hvalues, Go.utf8_cons]

/-- The pieces that mean something in the data format alone: a slash behind a backslash, and
    a character named by its halves. -/
def Piece.jsonOnly : Piece → Bool
  | .letter c => c = '/'
  | .pair _ _ => true
  | .plain _ | .unit _ | .long _ | .byte _ | .octal _ => false

/-- The pieces that mean something in the language alone: a control character as it is, the
    letters of two of them, a character in twice as many digits, and a byte. -/
def Piece.goOnly : Piece → Bool
  | .plain c => c.toNat < 0x20
  | .letter c => c = 'a' || c = 'v'
  | .long _ | .byte _ | .octal _ => true
  | .unit _ | .pair _ _ => false

theorem bytes?_eq_none_iff {p : Piece} {c : Char} (h : p.char? = some c) :
    p.bytes? = none ↔ p.jsonOnly = true := by
  cases p with
  | plain d =>
      rcases (Option.ite_none_right_eq_some.mp h).1 with ⟨hcontrol, hquote, hslash⟩
      -- A line break is a control character, which the data format does not take.
      have hline : d ≠ '\n' := by
        rintro rfl
        exact absurd hcontrol (by decide)
      rw [Piece.bytes?, if_pos ⟨hquote, hslash, hline⟩]
      exact iff_of_false (Option.some_ne_none _) Bool.false_ne_true
  | letter d =>
      rw [Piece.bytes?, Option.map_eq_none_iff]
      -- The letters are gone through one by one.
      exact (by decide : ∀ l ∈ jsonLetters,
        escapeLetters.lookup l.1 = none ↔ (Piece.letter l.1).jsonOnly = true) _ (mem_of_lookup h)
  | unit digits =>
      rcases Option.bind_eq_some_iff.mp h with ⟨n, hn, hchar⟩
      rw [Piece.bytes?, hn, Option.bind_some, Piece.bytes?.character?,
        if_pos (Option.ite_none_right_eq_some.mp hchar).1]
      exact iff_of_false (Option.some_ne_none _) Bool.false_ne_true
  | pair => exact ⟨fun _ => rfl, fun _ => rfl⟩
  | long | byte | octal => contradiction

theorem char?_eq_none_iff {p : Piece} {bytes : List UInt8} (h : p.bytes? = some bytes) :
    p.char? = none ↔ p.goOnly = true := by
  cases p with
  | plain d =>
      rcases (Option.ite_none_right_eq_some.mp h).1 with ⟨hquote, hslash, -⟩
      rw [Piece.char?, Piece.goOnly, decide_eq_true_iff, ite_eq_right_iff]
      constructor
      · intro hchar
        by_contra hcontrol
        exact Option.some_ne_none _ (hchar ⟨Nat.le_of_not_lt hcontrol, hquote, hslash⟩)
      · intro hcontrol hplain
        exact absurd hcontrol (Nat.not_lt_of_le hplain.1)
  | letter d =>
      rcases Option.map_eq_some_iff.mp h with ⟨byte, hbyte, -⟩
      exact (by decide : ∀ l ∈ escapeLetters,
        (Piece.letter l.1).char? = none ↔ (Piece.letter l.1).goOnly = true) _ (mem_of_lookup hbyte)
  | unit digits =>
      rcases Option.bind_eq_some_iff.mp h with ⟨n, hn, hbytes⟩
      rw [Piece.char?, hn, Option.bind_some, if_pos (Option.ite_none_right_eq_some.mp hbytes).1]
      exact iff_of_false (Option.some_ne_none _) Bool.false_ne_true
  | pair => contradiction
  | long | byte | octal => exact ⟨fun _ => rfl, fun _ => rfl⟩

end Literal

end FunctionalOptions
