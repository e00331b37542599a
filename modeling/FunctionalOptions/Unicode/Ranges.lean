/-!
# Ranges of Code Points

A property of characters is kept as the list of its ranges, and asked by
looking for the range that holds the character. The alternative, a predicate
written as nested comparisons, would be faster to run and far worse to reason
about: a fact about every character with a property becomes a fact about the
finitely many ranges of its table.

## Main definitions

* `Ranges`: A set of code points as a list of inclusive ranges.
* `Ranges.holds`: Membership of a character.

## Theorems

* `Ranges.holds_iff`: A character is held when some range holds it.
-/

namespace FunctionalOptions

namespace Unicode

/-- A set of code points, as the list of its inclusive ranges. -/
abbrev Ranges := List (Nat × Nat)

/-- The character lies in one of the ranges. -/
def Ranges.holds (ranges : Ranges) (c : Char) : Bool :=
  ranges.any fun range => range.1 ≤ c.toNat && c.toNat ≤ range.2

/-- A character is held when some range of the table holds it. -/
theorem Ranges.holds_iff (ranges : Ranges) (c : Char) :
    ranges.holds c = true ↔ ∃ range ∈ ranges, range.1 ≤ c.toNat ∧ c.toNat ≤ range.2 := by
  simp only [Ranges.holds, List.any_eq_true, Bool.and_eq_true, decide_eq_true_eq]

end Unicode

end FunctionalOptions
