import FunctionalOptions.Json.Number
import FunctionalOptions.Proofs.Text.Decimal
import FunctionalOptions.Proofs.Text.Runs

/-!
# Reading Written Numbers

The literals of natural numbers, which are all that is ever written. Such a
literal is scanned to its end when it is not followed by more of a number, and
if the number has at most 64 bits the literal stands for it.

A literal of this kind also passes the test for the range of a double. All its
digits fit into the significand, so no power of ten is left to multiply by, and
rounding cannot take 64 bits to infinity.

## Main definitions

* `EndsNumber`: A text does not go on with more of a number.

## Theorems

* `scanNumber_ofNat`: The literal of a number is scanned to its end.
* `natural?_ofNat`: The literal of a 64-bit number stands for the number.
* `inRange_ofNat`: The literal of a 64-bit number is within range.
-/

namespace FunctionalOptions

namespace Json

/-- The text does not go on with more of a number. -/
def EndsNumber (rest : List Char) : Prop :=
  ∀ c ∈ rest.head?, c.isDigit = false ∧ c ≠ '.' ∧ c ≠ 'e' ∧ c ≠ 'E'

/-- What follows digits is no further digit. -/
theorem EndsNumber.span {rest : List Char} (h : EndsNumber rest) {digits : List Char}
    (hdigits : ∀ d ∈ digits, d.isDigit = true) :
    (digits ++ rest).takeWhile Char.isDigit = digits ∧
      (digits ++ rest).dropWhile Char.isDigit = rest :=
  Text.takeWhile_append_of_head hdigits fun c hc => (h c hc).1

/-- No fraction and no exponent begin in what follows a number. -/
theorem EndsNumber.scan {rest : List Char} (h : EndsNumber rest) :
    scanFraction rest = .ok ([], rest) ∧ scanExponent rest = .ok ([], rest) := by
  cases rest with
  | nil => exact ⟨rfl, rfl⟩
  | cons c more =>
      rcases h c rfl with ⟨-, hpoint, hsmall, hcapital⟩
      constructor
      · unfold scanFraction
        split
        · next heq => exact absurd (List.cons.inj heq).1 hpoint
        · rfl
      · rw [scanExponent, if_neg (not_or.mpr ⟨hsmall, hcapital⟩)]

/-- The whole part of a numeral is all of it. -/
theorem scanWhole_toDigits (n : Nat) {rest : List Char} (h : EndsNumber rest) :
    scanWhole (Nat.toDigits 10 n ++ rest) = .ok (Nat.toDigits 10 n, rest) := by
  rcases Text.toDigits_cons n with ⟨c, more, hdigits, hc, hmore, hzero⟩
  rw [hdigits, List.cons_append]
  by_cases hc0 : c = '0'
  · -- A zero stands alone, so it matters what follows it.
    rw [hzero hc0, hc0, List.nil_append]
    cases rest with
    | nil => rfl
    | cons d after =>
        rw [scanWhole, if_neg]
        rw [(h d rfl).1]
        exact Bool.false_ne_true
  · have hspan := h.span hmore
    unfold scanWhole
    split
    · next heq => exact absurd (List.cons.inj heq).1 hc0
    · rw [scanDigits, if_pos hc, hspan.1, hspan.2]

/-- A numeral begins with a digit, so it has no sign. -/
theorem scanSign_toDigits (n : Nat) (rest : List Char) :
    scanSign (Nat.toDigits 10 n ++ rest) = ([], Nat.toDigits 10 n ++ rest) := by
  rcases Text.toDigits_cons n with ⟨c, more, hdigits, hc, -, -⟩
  rw [hdigits, List.cons_append]
  unfold scanSign
  split
  · next heq =>
    rw [(List.cons.inj heq).1] at hc
    exact absurd hc (by decide)
  · rfl

/-- The literal of a number is scanned to its end. -/
theorem scanNumber_ofNat (n : Nat) {rest : List Char} (h : EndsNumber rest) :
    scanNumber ((toString n).toList ++ rest) = .ok ((toString n).toList, rest) := by
  rw [Nat.toString_eq_ofList_toDigits, String.toList_ofList]
  simp only [scanNumber, scanSign_toDigits, scanWhole_toDigits n h, h.scan.1, h.scan.2, bind,
    Except.bind, pure, Except.pure, List.nil_append, List.append_nil]

/-- The value of digits is that of the numeral they make up. -/
theorem ofDigits_eq (digits : List Char) : ofDigits digits = Nat.ofDigitChars 10 digits 0 :=
  rfl

/-- The digits of a number have its value. -/
theorem ofDigits_toDigits (n : Nat) : ofDigits (Nat.toDigits 10 n) = n := by
  rw [ofDigits_eq, Nat.ofDigitChars_ten_toDigits]

/-- Every character of the digits of a number is a digit. -/
theorem isDigit_toDigits {n : Nat} {c : Char} (h : c ∈ Nat.toDigits 10 n) : c.isDigit = true :=
  Nat.isDigit_of_mem_toDigits (by decide) (by decide) h

/-- The literal of a 64-bit number stands for the number. -/
theorem natural?_ofNat {n : Nat} (h : n < wordSize) : natural? (toString n) = some n := by
  have hall : (Nat.toDigits 10 n).all Char.isDigit = true :=
    List.all_eq_true.mpr fun _ => isDigit_toDigits
  have hne : (Nat.toDigits 10 n).isEmpty = false := by
    rw [List.isEmpty_eq_false_iff]
    exact Nat.toDigits_ne_nil
  rw [Nat.toString_eq_ofList_toDigits, natural?, String.toList_ofList, hall, hne,
    ofDigits_toDigits, decide_eq_true h]
  rfl

/-- Digits fit into the significand as long as their value does. -/
theorem foldl_pushWhole (digits : List Char) {value : Nat}
    (h : Nat.ofDigitChars 10 digits value < wordSize) :
    digits.foldl Significand.pushWhole ⟨value, 0, false⟩ =
      ⟨Nat.ofDigitChars 10 digits value, 0, false⟩ := by
  induction digits generalizing value with
  | nil => rfl
  | cons c cs ih =>
      rw [Nat.ofDigitChars_cons] at h ⊢
      -- The value only grows, so what is gathered on the way fits as well.
      have hgrows : 10 * value + (c.toNat - '0'.toNat) ≤
          Nat.ofDigitChars 10 cs (10 * value + (c.toNat - '0'.toNat)) := by
        rw [Nat.ofDigitChars_eq_ofDigitChars_zero]
        exact Nat.le_trans (Nat.le_mul_of_pos_left _ (Nat.pow_pos (by decide)))
          (Nat.le_add_right _ _)
      have hfits : ¬wordSize ≤ 10 * value + (c.toNat - '0'.toNat) := by
        omega
      rw [List.foldl_cons, ← ih h, Significand.pushWhole]
      simp only [Bool.false_or, decide_eq_true_eq, if_neg hfits]

/-- A number of at most 64 bits is rounded to little more than itself. -/
theorem roundToDouble_le {n : Nat} (h : n < wordSize) : roundToDouble n ≤ wordSize + 2048 := by
  -- At most eleven bits are rounded away, so at most one unit of that size is
  -- added.
  have hspare : Nat.log2 n + 1 - 53 ≤ 11 := by
    by_cases hzero : n = 0
    · rw [hzero]
      decide
    · have hlog : Nat.log2 n < 64 := (Nat.log2_lt hzero).mpr h
      omega
  have hunit : Nat.pow 2 (Nat.log2 n + 1 - 53) ≤ 2048 := Nat.pow_le_pow_right (by decide) hspare
  simp only [roundToDouble]
  generalize Nat.pow 2 (Nat.log2 n + 1 - 53) = unit at hunit ⊢
  have hlow : n / unit * unit ≤ n := Nat.div_mul_le_self n unit
  have hround : ∀ up : Bool, (if up then n / unit + 1 else n / unit) * unit ≤ n + unit := by
    intro up
    cases up with
    | true =>
        rw [if_pos rfl, Nat.add_mul, Nat.one_mul]
        exact Nat.add_le_add_right hlow unit
    | false => exact Nat.le_trans hlow (Nat.le_add_right _ _)
  exact Nat.le_trans (hround _) (by omega)

/-- A full significand without a power of ten is within range. -/
theorem finite_of_lt {n : Nat} (h : n < wordSize) : Significand.finite ⟨n, 0, false⟩ = true := by
  have hbound : (wordSize + 2048) * roundToDouble (Nat.pow 10 0) < overflowBound := by
    decide +kernel
  have hproduct : roundToDouble n * roundToDouble (Nat.pow 10 0) < overflowBound :=
    Nat.lt_of_le_of_lt (Nat.mul_le_mul_right _ (roundToDouble_le h)) hbound
  unfold Significand.finite
  split
  · rfl
  · exact (if_neg (show ¬(0 : Int) > 308 by decide)).trans (decide_eq_true hproduct)

/-- The literal of a 64-bit number is within range. -/
theorem inRange_ofNat {n : Nat} (h : n < wordSize) : inRange (toString n) = true := by
  have hspan := @EndsNumber.span [] (fun _ hc => nomatch hc) (Nat.toDigits 10 n)
    fun _ => isDigit_toDigits
  have hsign := scanSign_toDigits n []
  rw [List.append_nil] at hspan hsign
  have hgathered : (Nat.toDigits 10 n).foldl Significand.pushWhole ⟨0, 0, false⟩ =
      ⟨n, 0, false⟩ := by
    rw [foldl_pushWhole _ (by rwa [Nat.ofDigitChars_ten_toDigits]), Nat.ofDigitChars_ten_toDigits]
  have hlimit : ¬exponentLimit ≤ 0 := by
    decide
  simp only [inRange, Nat.toString_eq_ofList_toDigits, String.toList_ofList, hsign, hspan.1,
    hspan.2, hgathered, List.foldl_nil, if_neg hlimit]
  exact finite_of_lt h

end Json

end FunctionalOptions
