import FunctionalOptions.Json.Text

/-!
# The Nesting of a Tree

How deep the arrays and objects of a tree nest. A reader counts the same thing
the other way round, as the depth that is left inside a container, so what is
shown here is how a bound on the whole comes apart: it leaves one less for
everything inside.

## Main definitions

* `Json.nesting`: How many arrays and objects are open at once at most.

## Theorems

* `nesting_arr_le_iff`, `nesting_obj_le_iff`: A container nests within a bound
  when what is inside nests within one less.
-/

namespace FunctionalOptions

namespace Json

mutual

/-- How many arrays and objects of a tree are open at once at most. -/
def nesting : Json → Nat
  | .array items _ => itemsNesting items + 1
  | .object members _ => membersNesting members + 1
  | _ => 0

/-- How deep the deepest item nests. -/
def itemsNesting : List Json → Nat
  | [] => 0
  | item :: rest => max item.nesting (itemsNesting rest)

/-- How deep the deepest value of a member nests. -/
def membersNesting : List (Option String × Json) → Nat
  | [] => 0
  | (_, value) :: rest => max value.nesting (membersNesting rest)

end

theorem itemsNesting_le_iff {items : List Json} {depth : Nat} :
    itemsNesting items ≤ depth ↔ ∀ item ∈ items, item.nesting ≤ depth := by
  induction items with
  | nil => simp only [itemsNesting, Nat.zero_le, List.not_mem_nil, false_implies, implies_true]
  | cons item rest ih => rw [itemsNesting, Nat.max_le, ih, List.forall_mem_cons]

theorem membersNesting_le_iff {members : List (Option String × Json)} {depth : Nat} :
    membersNesting members ≤ depth ↔ ∀ member ∈ members, member.2.nesting ≤ depth := by
  induction members with
  | nil => simp only [membersNesting, Nat.zero_le, List.not_mem_nil, false_implies, implies_true]
  | cons member rest ih => rw [membersNesting, Nat.max_le, ih, List.forall_mem_cons]

/-- A bound on a successor leaves one less. -/
theorem succ_le_iff_exists {n depth : Nat} :
    n + 1 ≤ depth ↔ ∃ inside, depth = inside + 1 ∧ n ≤ inside := by
  constructor
  · intro h
    exact ⟨depth - 1, by omega, by omega⟩
  · rintro ⟨inside, rfl, h⟩
    exact Nat.add_le_add_right h 1

/-- An array nests within a bound when its items nest within one less. -/
theorem nesting_arr_le_iff {items : List Json} {depth : Nat} :
    (arr items).nesting ≤ depth ↔
      ∃ inside, depth = inside + 1 ∧ ∀ item ∈ items, item.nesting ≤ inside := by
  rw [arr, nesting, succ_le_iff_exists]
  simp only [itemsNesting_le_iff]

/-- An object nests within a bound when the values of its members nest within
    one less. -/
theorem nesting_obj_le_iff {members : List (String × Json)} {depth : Nat} :
    (obj members).nesting ≤ depth ↔
      ∃ inside, depth = inside + 1 ∧ ∀ member ∈ members, member.2.nesting ≤ inside := by
  rw [obj, nesting, succ_le_iff_exists]
  simp only [membersNesting_le_iff, List.forall_mem_map]

end Json

end FunctionalOptions
