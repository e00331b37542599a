import FunctionalOptions.Descriptor.Json.Shape

/-!
# Members by Name

The member of a name, among members in any order, is the only one of that name. How members are
looked up is told here from how they come: in another order, with one more of them, or without
those of another name.

## Theorems

* `unique?_perm`: The order of members does not matter.
* `unique?_cons_of_ne`: A member of another name does not matter.
* `unique?_cons_eq_some_iff`: A member of the name has to be the only one.
-/

namespace FunctionalOptions

namespace Descriptor

section Unique

variable {name : String} {members others : List (Option String × Json)}

/-- The values of a name are told apart only by how many they are. -/
theorem unique?_congr (h : (members.filter (·.1 == some name)).Perm
    (others.filter (·.1 == some name))) : unique? name members = unique? name others := by
  unfold unique?
  generalize members.filter (·.1 == some name) = found at h
  generalize others.filter (·.1 == some name) = others at h
  -- None, one, or too many: only the one has a value to be told, and it is the same.
  match found, others, h with
  | [], others, h => rw [List.nil_perm.mp h]
  | [member], others, h => rw [List.singleton_perm.mp h]
  | first :: second :: rest, others, h =>
      match others, h.length_eq with
      | _ :: _ :: _, _ => rfl

/-- The order of members does not matter. -/
theorem unique?_perm (h : members.Perm others) :
    unique? name members = unique? name others :=
  unique?_congr (h.filter _)

theorem unique?_cons_of_ne {member : Option String × Json} (h : member.1 ≠ some name) :
    unique? name (member :: members) = unique? name members := by
  rw [unique?, unique?, List.filter_cons_of_neg]
  rw [beq_iff_eq]
  exact h

theorem unique?_eq_none (h : ∀ member ∈ members, member.1 ≠ some name) :
    unique? name members = some none := by
  have hnone : members.filter (·.1 == some name) = [] := by
    rw [List.filter_eq_nil_iff]
    intro member hmember hname
    exact h member hmember (beq_iff_eq.mp hname)
  rw [unique?, hnone]

/-- A member of the name has to be the only one. -/
theorem unique?_cons_eq_some_iff {value : Json} {field : Option Json} :
    unique? name ((some name, value) :: members) = some field ↔
      unique? name members = some none ∧ field = some value := by
  have hcons : ((some name, value) :: members).filter (·.1 == some name) =
      (some name, value) :: members.filter (·.1 == some name) :=
    List.filter_cons_of_pos (beq_self_eq_true _)
  rw [unique?, unique?, hcons]
  -- Without another one this is the value, and with another one there is none.
  cases members.filter (·.1 == some name) with
  | nil => exact ⟨fun h => ⟨rfl, (Option.some.inj h).symm⟩, fun h => congrArg some h.2.symm⟩
  | cons first rest =>
      constructor
      · intro h
        cases h
      · rintro ⟨h, -⟩
        cases rest with
        | nil => cases h
        | cons second rest => cases h

/-- Members of another name can be left out. -/
theorem unique?_filter_ne {other : String} (h : name ≠ other) :
    unique? name (members.filter (·.1 != some other)) = unique? name members := by
  refine unique?_congr (List.Perm.of_eq ?_)
  rw [List.filter_filter]
  refine List.filter_congr fun member _ => ?_
  by_cases hname : member.1 = some name
  · rw [hname, beq_self_eq_true, Bool.true_and, bne_iff_ne]
    exact fun hother => h (Option.some.inj hother)
  · rw [beq_false_of_ne hname, Bool.false_and]

end Unique

end Descriptor

end FunctionalOptions
