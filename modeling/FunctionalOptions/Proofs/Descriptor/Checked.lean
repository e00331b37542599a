import FunctionalOptions.Descriptor.Json.Check
import FunctionalOptions.Proofs.Descriptor.Members
import FunctionalOptions.Proofs.Fallible

/-!
# Texts That Pass the Check

The text of a shape is checked in one pass before the shape is read. The check asks the same of
every value inside, wherever it comes: that it is in order itself, and that there is enough depth
left for it. Only the kind of a shape is told from the other members, and has to come once.

## Main definitions

* `CheckedIn`: A member of a shape is its kind or passes the check.

## Theorems

* `check_array_eq_ok_iff`, `check_object_eq_ok_iff`: Containers that pass the check.
* `checkTaggedMembers_eq_ok_iff`: The kind comes up exactly once.
* `checkTagged_object_eq_ok_iff`, `checkTagged_array_eq_ok_iff`: Shapes that pass the check.
-/

namespace FunctionalOptions

namespace Descriptor

variable {depth : Nat} {items : List Json} {members : List (Option String × Json)}

theorem checkItems_eq_ok_iff :
    checkItems depth items = .ok () ↔ ∀ item ∈ items, check depth item = .ok () := by
  induction items with
  | nil => simp [checkItems]
  | cons item rest ih =>
      rw [checkItems, Except.check_bind_eq_ok_iff, ih, List.forall_mem_cons]

theorem checkMember_eq_ok_iff {member : Option String × Json} :
    checkMember depth member = .ok () ↔
      (∃ name, member.1 = some name) ∧ check depth member.2 = .ok () := by
  rcases member with ⟨_ | name, value⟩
  · simp [checkMember]
  · simp [checkMember]

/-- Members have names, and values that pass the check. -/
theorem checkMembers_eq_ok_iff :
    checkMembers depth members = .ok () ↔
      ∀ member ∈ members, (∃ name, member.1 = some name) ∧ check depth member.2 = .ok () := by
  induction members with
  | nil => simp [checkMembers]
  | cons member rest ih =>
      rw [checkMembers, Except.check_bind_eq_ok_iff, ih, checkMember_eq_ok_iff,
        List.forall_mem_cons]

theorem check_array_eq_ok_iff :
    check depth (.array items none) = .ok () ↔
      ∃ inside, depth = inside + 1 ∧ ∀ item ∈ items, check inside item = .ok () := by
  cases depth with
  | zero => simp [check]
  | succ inside => simp [check, Except.check_bind_eq_ok_iff, checkItems_eq_ok_iff, ended]

theorem check_object_eq_ok_iff :
    check depth (.object members none) = .ok () ↔ ∃ inside, depth = inside + 1 ∧
      ∀ member ∈ members, (∃ name, member.1 = some name) ∧ check inside member.2 = .ok () := by
  cases depth with
  | zero => simp [check]
  | succ inside => simp [check, Except.check_bind_eq_ok_iff, checkMembers_eq_ok_iff, ended]

/-! ## Shapes -/

/-- A member of a shape is its kind or passes the check. -/
def CheckedIn (depth : Nat) (member : Option String × Json) : Prop :=
  ∃ name, member.1 = some name ∧ (name = "kind" ∨ check depth member.2 = .ok ())

theorem checkedIn_some_iff {name : String} {value : Json} :
    CheckedIn depth (some name, value) ↔ name = "kind" ∨ check depth value = .ok () := by
  simp [CheckedIn]

/-- The kind comes up exactly once, or not again when it has been seen. -/
theorem checkTaggedMembers_eq_ok_iff {seen : Bool} :
    checkTaggedMembers depth seen none members = .ok () ↔
      (∀ member ∈ members, CheckedIn depth member) ∧
        if seen then unique? "kind" members = some none
        else ∃ value, unique? "kind" members = some (some value) ∧ checkKind value = .ok () := by
  -- Whether the kind has been seen changes along the members, so the induction is for both cases.
  induction members generalizing seen with
  | nil => cases seen <;> simp [checkTaggedMembers, ended, unique?, Except.check_bind_eq_ok_iff]
  | cons member rest ih =>
      rcases member with ⟨_ | name, value⟩
      · simp [checkTaggedMembers, CheckedIn]
      rw [checkTaggedMembers, List.forall_mem_cons, checkedIn_some_iff]
      by_cases hkind : name = "kind"
      · subst hkind
        simp only [if_pos, true_or, true_and, unique?_cons_eq_some_iff]
        -- A second kind is an error. The first one is checked, and no other may come behind it.
        cases seen with
        | true => simp
        | false =>
            simp only [Bool.false_eq_true, if_false, Except.check_bind_eq_ok_iff, ih, if_true]
            constructor
            · rintro ⟨hchecked, hrest, hnone⟩
              exact ⟨hrest, value, ⟨hnone, rfl⟩, hchecked⟩
            · rintro ⟨hrest, _, ⟨hnone, h⟩, hchecked⟩
              exact ⟨Option.some.inj h ▸ hchecked, hrest, hnone⟩
      · have hother : (some name, value).1 ≠ some "kind" :=
          fun h => hkind (Option.some.inj h)
        rw [if_neg hkind, Except.check_bind_eq_ok_iff, ih, unique?_cons_of_ne hother,
          or_iff_right hkind, and_assoc]

/-- A shape that is written as an object passes the check. -/
theorem checkTagged_object_eq_ok_iff :
    checkTagged depth (.object members none) = .ok () ↔ ∃ inside, depth = inside + 1 ∧
      (∀ member ∈ members, CheckedIn inside member) ∧
        ∃ value, unique? "kind" members = some (some value) ∧ checkKind value = .ok () := by
  cases depth with
  | zero => simp [checkTagged]
  | succ inside => simp [checkTagged, checkTaggedMembers_eq_ok_iff]

/-- A shape that is written as an array passes the check, its kind in front. -/
theorem checkTagged_array_eq_ok_iff :
    checkTagged depth (.array items none) = .ok () ↔ ∃ inside first rest,
      depth = inside + 1 ∧ items = first :: rest ∧ checkKind first = .ok () ∧
        ∀ item ∈ rest, check inside item = .ok () := by
  cases depth with
  | zero => simp [checkTagged]
  | succ inside =>
      cases items with
      | nil => simp [checkTagged, ended, Except.check_bind_eq_ok_iff]
      | cons first rest =>
          simp only [checkTagged, Except.check_bind_eq_ok_iff, checkItems_eq_ok_iff, ended,
            and_true]
          constructor
          · rintro ⟨hfirst, hrest⟩
            exact ⟨inside, first, rest, rfl, rfl, hfirst, hrest⟩
          · rintro ⟨_, _, _, ⟨⟩, ⟨⟩, hfirst, hrest⟩
            exact ⟨hfirst, hrest⟩

end Descriptor

end FunctionalOptions
