import FunctionalOptions.Json.Basic

/-!
# Number Literals

A number literal is an optional sign, a whole part without leading zeros, an
optional fraction and an optional exponent. Only one question is asked of its
value: whether it is a natural number of at most 64 bits, which is what an
array length needs to be.

A second question is asked of every literal that is read at all: whether it is
within the range of a double. A literal such as `1e400` is refused even where
its value does not matter. The test follows the way such readers compute the
value. The digits are gathered into a 64-bit significand as far as they fit,
digits beyond that count only as powers of ten, and the value is the product
of two doubles, the significand and the power of ten. The product is out of
range when it rounds to infinity.

## Main definitions

* `scanNumber`: The literal at the head of a text.
* `natural?`: The 64-bit natural number a literal writes.
* `inRange`: The literal is within the range of a double.

## Theorems

* `scanNumber_append`: A literal and what follows it make up the text.
-/

namespace FunctionalOptions

namespace Json

/-- The digits at the head of a text, which have to be there: a text that ends
    instead ends inside a number. -/
def scanDigits (text : List Char) : Except Stop (List Char × List Char) :=
  match text with
  | [] => .error .insideNumber
  | c :: rest =>
    if c.isDigit then .ok (c :: rest.takeWhile Char.isDigit, rest.dropWhile Char.isDigit)
    else .error .malformed

/-- The whole part of a number. A zero stands alone. -/
def scanWhole (text : List Char) : Except Stop (List Char × List Char) :=
  match text with
  | '0' :: rest =>
    match rest with
    | c :: _ => if c.isDigit then .error .malformed else .ok (['0'], rest)
    | [] => .ok (['0'], [])
  | _ => scanDigits text

/-- The fraction of a number, if it has one. -/
def scanFraction (text : List Char) : Except Stop (List Char × List Char) :=
  match text with
  | '.' :: rest =>
    match scanDigits rest with
    | .ok (digits, rest) => .ok ('.' :: digits, rest)
    | .error stop => .error stop
  | _ => .ok ([], text)

/-- The digits of an exponent with their sign. -/
def scanSignedDigits (text : List Char) : Except Stop (List Char × List Char) :=
  match text with
  | c :: rest =>
    if c = '+' ∨ c = '-' then
      match scanDigits rest with
      | .ok (digits, rest) => .ok (c :: digits, rest)
      | .error stop => .error stop
    else scanDigits text
  | [] => scanDigits []

/-- The exponent of a number, if it has one. -/
def scanExponent (text : List Char) : Except Stop (List Char × List Char) :=
  match text with
  | c :: rest =>
    if c = 'e' ∨ c = 'E' then
      match scanSignedDigits rest with
      | .ok (digits, rest) => .ok (c :: digits, rest)
      | .error stop => .error stop
    else .ok ([], text)
  | [] => .ok ([], [])

/-- The sign at the head of a number, if it has one. -/
def scanSign (text : List Char) : List Char × List Char :=
  match text with
  | '-' :: rest => (['-'], rest)
  | _ => ([], text)

/-- The number literal at the head of a text, and what follows it. -/
def scanNumber (text : List Char) : Except Stop (List Char × List Char) := do
  let (sign, text) := scanSign text
  let (whole, text) ← scanWhole text
  let (fraction, text) ← scanFraction text
  let (exponent, text) ← scanExponent text
  return (sign ++ whole ++ fraction ++ exponent, text)

theorem scanDigits_append {text digits rest : List Char}
    (h : scanDigits text = .ok (digits, rest)) : text = digits ++ rest ∧ digits ≠ [] := by
  unfold scanDigits at h
  split at h
  · exact absurd h (by simp only [reduceCtorEq, not_false_eq_true])
  · split at h
    · simp only [Except.ok.injEq, Prod.mk.injEq] at h
      obtain ⟨rfl, rfl⟩ := h
      exact ⟨by simp only [List.cons_append, List.takeWhile_append_dropWhile], by simp⟩
    · exact absurd h (by simp only [reduceCtorEq, not_false_eq_true])

theorem scanWhole_append {text whole rest : List Char}
    (h : scanWhole text = .ok (whole, rest)) : text = whole ++ rest ∧ whole ≠ [] := by
  unfold scanWhole at h
  split at h
  · split at h
    · split at h
      · exact absurd h (by simp only [reduceCtorEq, not_false_eq_true])
      · simp only [Except.ok.injEq, Prod.mk.injEq] at h
        obtain ⟨rfl, rfl⟩ := h
        exact ⟨rfl, by simp⟩
    · simp only [Except.ok.injEq, Prod.mk.injEq] at h
      obtain ⟨rfl, rfl⟩ := h
      exact ⟨rfl, by simp⟩
  · exact scanDigits_append h

theorem scanFraction_append {text fraction rest : List Char}
    (h : scanFraction text = .ok (fraction, rest)) : text = fraction ++ rest := by
  unfold scanFraction at h
  split at h
  · split at h
    · next hd =>
      simp only [Except.ok.injEq, Prod.mk.injEq] at h
      obtain ⟨rfl, rfl⟩ := h
      rw [(scanDigits_append hd).1, List.cons_append]
    · exact absurd h (by simp only [reduceCtorEq, not_false_eq_true])
  · simp only [Except.ok.injEq, Prod.mk.injEq] at h
    obtain ⟨rfl, rfl⟩ := h
    rfl

theorem scanSignedDigits_append {text digits rest : List Char}
    (h : scanSignedDigits text = .ok (digits, rest)) : text = digits ++ rest := by
  unfold scanSignedDigits at h
  split at h
  · split at h
    · split at h
      · next hd =>
        simp only [Except.ok.injEq, Prod.mk.injEq] at h
        obtain ⟨rfl, rfl⟩ := h
        rw [(scanDigits_append hd).1, List.cons_append]
      · exact absurd h (by simp only [reduceCtorEq, not_false_eq_true])
    · exact (scanDigits_append h).1
  · exact (scanDigits_append h).1

theorem scanExponent_append {text exponent rest : List Char}
    (h : scanExponent text = .ok (exponent, rest)) : text = exponent ++ rest := by
  unfold scanExponent at h
  split at h
  · split at h
    · split at h
      · next hd =>
        simp only [Except.ok.injEq, Prod.mk.injEq] at h
        obtain ⟨rfl, rfl⟩ := h
        rw [scanSignedDigits_append hd, List.cons_append]
      · exact absurd h (by simp only [reduceCtorEq, not_false_eq_true])
    · simp only [Except.ok.injEq, Prod.mk.injEq] at h
      obtain ⟨rfl, rfl⟩ := h
      rfl
  · simp only [Except.ok.injEq, Prod.mk.injEq] at h
    obtain ⟨rfl, rfl⟩ := h
    rfl

theorem scanSign_append (text : List Char) : text = (scanSign text).1 ++ (scanSign text).2 := by
  unfold scanSign
  split <;> rfl

/-- A literal and what follows it make up the text, and the literal is not
    empty. -/
theorem scanNumber_append {text literal rest : List Char}
    (h : scanNumber text = .ok (literal, rest)) : text = literal ++ rest ∧ literal ≠ [] := by
  simp only [scanNumber, bind, Except.bind, pure, Except.pure] at h
  split at h
  · exact absurd h (by simp only [reduceCtorEq, not_false_eq_true])
  next whole hw =>
    split at h
    · exact absurd h (by simp only [reduceCtorEq, not_false_eq_true])
    next fraction hf =>
      split at h
      · exact absurd h (by simp only [reduceCtorEq, not_false_eq_true])
      next exponent he =>
        simp only [Except.ok.injEq, Prod.mk.injEq] at h
        obtain ⟨rfl, rfl⟩ := h
        refine ⟨?_, ?_⟩
        · rw [List.append_assoc, List.append_assoc, List.append_assoc,
            ← scanExponent_append he, ← scanFraction_append hf, ← (scanWhole_append hw).1]
          exact scanSign_append text
        · have := (scanWhole_append hw).2
          simp only [ne_eq, List.append_eq_nil_iff, this, and_false, false_and,
            not_false_eq_true]

/-- The value of a list of decimal digits. -/
def ofDigits (digits : List Char) : Nat :=
  digits.foldl (fun n c => 10 * n + (c.toNat - '0'.toNat)) 0

/-- One more than the greatest 64-bit natural number. -/
def wordSize : Nat := Nat.pow 2 64

/-- The 64-bit natural number a literal writes. A sign, a fraction or an
    exponent makes it a number of another kind, whatever its value. -/
def natural? (literal : String) : Option Nat :=
  let digits := literal.toList
  if digits.all Char.isDigit && !digits.isEmpty && ofDigits digits < wordSize then
    some (ofDigits digits)
  else none

/-- Digits gathered so far: a significand of at most 64 bits, the power of ten
    it stands at, and whether it is full. -/
structure Significand where
  value : Nat
  exponent : Int
  full : Bool

/-- Take in a digit before the point. A full significand counts it as a power
    of ten. -/
def Significand.pushWhole (s : Significand) (c : Char) : Significand :=
  let value := 10 * s.value + (c.toNat - '0'.toNat)
  if s.full || wordSize ≤ value then ⟨s.value, s.exponent + 1, true⟩
  else ⟨value, s.exponent, false⟩

/-- Take in a digit after the point. A full significand leaves it out. -/
def Significand.pushFraction (s : Significand) (c : Char) : Significand :=
  let value := 10 * s.value + (c.toNat - '0'.toNat)
  if s.full || wordSize ≤ value then ⟨s.value, s.exponent, true⟩
  else ⟨value, s.exponent - 1, false⟩

/-- A natural number rounded to the 53 bits of a double, ties to even. -/
def roundToDouble (n : Nat) : Nat :=
  let spare := (Nat.log2 n + 1) - 53
  let unit := Nat.pow 2 spare
  let low := n / unit
  let rest := n % unit
  let up := 2 * rest > unit || (2 * rest == unit && low % 2 == 1)
  (if up then low + 1 else low) * unit

/-- The least natural number that rounds to infinity. -/
def overflowBound : Nat := Nat.pow 2 1024 - Nat.pow 2 970

/-- The greatest exponent that is read as a number at all. -/
def exponentLimit : Nat := Nat.pow 2 31

/-- The significand times the power of ten is below infinity. -/
def Significand.finite (s : Significand) : Bool :=
  if s.exponent < 0 || s.value == 0 then true
  else if s.exponent > 308 then false
  else roundToDouble s.value * roundToDouble (Nat.pow 10 s.exponent.toNat) < overflowBound

/-- The literal is within the range of a double. -/
def inRange (literal : String) : Bool :=
  let text := (scanSign literal.toList).2
  let whole := text.takeWhile Char.isDigit
  let text := text.dropWhile Char.isDigit
  let fraction := match text with
    | '.' :: rest => rest.takeWhile Char.isDigit
    | _ => []
  let text := match text with
    | '.' :: rest => rest.dropWhile Char.isDigit
    | _ => text
  let gathered := whole.foldl Significand.pushWhole ⟨0, 0, false⟩
  -- A whole part that overflows still takes digits of the fraction that fit.
  let gathered := fraction.foldl Significand.pushFraction { gathered with full := false }
  let (negative, exponent) := match text with
    | _ :: '-' :: digits => (true, ofDigits digits)
    | _ :: '+' :: digits => (false, ofDigits digits)
    | _ :: digits => (false, ofDigits digits)
    | [] => (false, 0)
  if exponentLimit ≤ exponent then gathered.value == 0 || negative
  else
    let shift : Int := if negative then -exponent else exponent
    { gathered with exponent := gathered.exponent + shift }.finite

end Json

end FunctionalOptions
