import FunctionalOptions.Proofs.Descriptor.Checked
import FunctionalOptions.Proofs.Descriptor.Kept
import Mathlib.Data.List.Nodup

/-!
# Structures That Say the Same

Two structures say the same if for each of the places that are defined for them the values are
the same, or cannot be told apart, or one is missing where the other holds what is filled in for
it. What else there is in the second one is plain, or is there in the first one, too.

Each way to put the members of an object into other words leads to two structures that say the
same. From there on, only this is used: by a structure that is read in one pass, which looks
its slots up by name and passes over the rest, and by one that is read by name, whose fields are
compared one by one.

## Main definitions

* `Place.Alike`: The values of a place in two structures that say the same.
* `MembersAlike`: The members of two structures that say the same.
* `FieldsAlike`: The fields of two structures that say the same, in the order of their places.

## Theorems

* `MembersAlike.permute`, `MembersAlike.insert`, `MembersAlike.drop`, `MembersAlike.null`,
  `MembersAlike.change`: The ways to put members into other words.
* `MembersAlike.filled`, `MembersAlike.defaulted`: A slot is filled as before.
* `MembersAlike.fields?`: Fields that are looked up by name are alike.
* `fieldsAlike_items`: Fields that are given in order are alike.
-/

namespace FunctionalOptions

namespace Descriptor

open Json (Failure)

/-! ## Members -/

theorem Plain.skip_eq {value : Json} (h : Plain value) : skip value = .ok () := by
  cases h <;> rfl

theorem Plain.check_eq {value : Json} (h : Plain value) (depth : Nat) :
    check depth value = .ok () := by
  cases h <;> rw [check]

/-- The values of a place in two structures that say the same. -/
inductive Place.Alike (place : Place) : Option Json → Option Json → Prop where
  | same (field : Option Json) : Place.Alike place field field
  | kept {value other : Json} : Kept place.role value other →
    Place.Alike place (some value) (some other)
  | omitted {value : Json} : place.absence.Holds value → Place.Alike place (some value) none
  | null : place.absence = .null → Place.Alike place none (some .null)

/-- The members of a structure with the places, and those of one that says the same. Those
    that are new are plain, and their names mean nothing. -/
structure MembersAlike (places : List Place) (members others : List (Option String × Json)) :
    Prop where
  fields : ∀ place ∈ places, ∀ field, unique? place.name members = some field →
    ∃ other, unique? place.name others = some other ∧ place.Alike field other
  known : ∀ other ∈ others, ((∃ name, other.1 = some name) ∧ Plain other.2) ∨
    ∃ member ∈ members, member.1 = other.1 ∧
      (member.2 = other.2 ∨ ∃ role, Kept role member.2 other.2)

namespace MembersAlike

variable {places : List Place} {members others : List (Option String × Json)}

theorem permute (h : members.Perm others) : MembersAlike places members others where
  fields _ _ field hfield := ⟨field, (unique?_perm h).symm.trans hfield, .same field⟩
  known other hother := .inr ⟨other, h.mem_iff.mpr hother, rfl, .inl rfl⟩

theorem insert {name : String} {value : Json} (hname : name ∉ places.map Place.name)
    (hplain : Plain value) :
    MembersAlike places members ((some name, value) :: members) where
  fields place hplace field hfield := by
    refine ⟨field, ?_, .same field⟩
    -- The new name is not that of a place, so no look-up sees it.
    rw [unique?_cons_of_ne, hfield]
    exact fun hsame => hname (Option.some.inj hsame ▸ List.mem_map_of_mem hplace)
  known other hother := by
    rcases List.mem_cons.mp hother with rfl | hother
    · exact .inl ⟨⟨name, rfl⟩, hplain⟩
    · exact .inr ⟨other, hother, rfl, .inl rfl⟩

theorem drop {place : Place} {value : Json} (hnames : (places.map Place.name).Nodup)
    (hplace : place ∈ places) (hholds : place.absence.Holds value) :
    MembersAlike places ((some place.name, value) :: members) members where
  fields other hother field hfield := by
    -- Only the place of the member loses its value, and places are told apart by their names.
    by_cases hname : other.name = place.name
    · obtain rfl := List.inj_on_of_nodup_map hnames hother hplace hname
      rw [unique?_cons_eq_some_iff] at hfield
      rcases hfield with ⟨hnone, rfl⟩
      exact ⟨none, hnone, .omitted hholds⟩
    · rw [unique?_cons_of_ne fun hsame => hname (Option.some.inj hsame).symm] at hfield
      exact ⟨field, hfield, .same field⟩
  known other hother := .inr ⟨other, List.mem_cons_of_mem _ hother, rfl, .inl rfl⟩

theorem null {place : Place} (hnames : (places.map Place.name).Nodup) (hplace : place ∈ places)
    (habsence : place.absence = .null)
    (habsent : ∀ member ∈ members, member.1 ≠ some place.name) :
    MembersAlike places members ((some place.name, .null) :: members) where
  fields other hother field hfield := by
    -- Only the place of the member gains one, where there was none before.
    by_cases hname : other.name = place.name
    · obtain rfl := List.inj_on_of_nodup_map hnames hother hplace hname
      rw [unique?_eq_none habsent] at hfield
      cases hfield
      exact ⟨some .null, unique?_cons_eq_some_iff.mpr ⟨unique?_eq_none habsent, rfl⟩,
        .null habsence⟩
    · refine ⟨field, ?_, .same field⟩
      rw [unique?_cons_of_ne fun hsame => hname (Option.some.inj hsame).symm, hfield]
  known other hother := by
    rcases List.mem_cons.mp hother with rfl | hother
    · exact .inl ⟨⟨place.name, rfl⟩, .null⟩
    · exact .inr ⟨other, hother, rfl, .inl rfl⟩

theorem change {name : Option String} {role : Role} {value other : Json}
    (hrole : ∀ place ∈ places, name = some place.name → place.role = role)
    (hkept : Kept role value other) :
    MembersAlike places ((name, value) :: members) ((name, other) :: members) where
  fields place hplace field hfield := by
    -- The value is that of the place, and is changed by its role, or it is that of another one.
    by_cases hname : name = some place.name
    · subst hname
      rw [unique?_cons_eq_some_iff] at hfield
      rcases hfield with ⟨hnone, rfl⟩
      exact ⟨some other, unique?_cons_eq_some_iff.mpr ⟨hnone, rfl⟩,
        .kept (hrole place hplace rfl ▸ hkept)⟩
    · rw [unique?_cons_of_ne hname] at hfield
      exact ⟨field, (unique?_cons_of_ne hname).trans hfield, .same field⟩
  known member hmember := by
    rcases List.mem_cons.mp hmember with rfl | hmember
    · exact .inr ⟨(name, value), List.mem_cons_self, rfl, .inr ⟨role, hkept⟩⟩
    · exact .inr ⟨member, List.mem_cons_of_mem _ hmember, rfl, .inl rfl⟩

/-- The order of members does not matter. -/
theorem perm {members' others' : List (Option String × Json)}
    (h : MembersAlike places members others) (hmembers : members'.Perm members)
    (hothers : others.Perm others') : MembersAlike places members' others' where
  fields place hplace field hfield := by
    rw [unique?_perm hmembers] at hfield
    rcases h.fields place hplace field hfield with ⟨other, hother, halike⟩
    exact ⟨other, (unique?_perm hothers).symm.trans hother, halike⟩
  known other hother := by
    refine (h.known other (hothers.mem_iff.mpr hother)).imp_right ?_
    rintro ⟨member, hmember, hsame⟩
    exact ⟨member, hmembers.mem_iff.mpr hmember, hsame⟩

/-- What passed the check still does. -/
theorem check_of {depth : Nat} (h : MembersAlike places members others)
    (hcheck : ∀ member ∈ members, (∃ name, member.1 = some name) ∧ check depth member.2 = .ok ()) :
    ∀ other ∈ others, (∃ name, other.1 = some name) ∧ check depth other.2 = .ok () := by
  intro other hother
  rcases h.known other hother with ⟨hname, hplain⟩ | ⟨member, hmember, hname, hvalue⟩
  · exact ⟨hname, hplain.check_eq depth⟩
  · rcases hcheck member hmember with ⟨hsome, hchecked⟩
    refine ⟨hname ▸ hsome, ?_⟩
    rcases hvalue with hsame | ⟨role, hkept⟩
    · exact hsame ▸ hchecked
    · exact hkept.check depth hchecked

theorem checkedIn_of {depth : Nat} (h : MembersAlike places members others)
    (hcheck : ∀ member ∈ members, CheckedIn depth member) :
    ∀ other ∈ others, CheckedIn depth other := by
  intro other hother
  rcases h.known other hother with ⟨⟨name, hname⟩, hplain⟩ | ⟨member, hmember, hname, hvalue⟩
  · exact ⟨name, hname, .inr (hplain.check_eq depth)⟩
  · rcases hcheck member hmember with ⟨name, hsome, hchecked⟩
    refine ⟨name, hname.symm.trans hsome, hchecked.imp_right fun hchecked => ?_⟩
    rcases hvalue with hsame | ⟨role, hkept⟩
    · exact hsame ▸ hchecked
    · exact hkept.check depth hchecked

/-- What could be passed over still can. -/
theorem known_of {names : List String} (h : MembersAlike places members others)
    (hknown : Known names members) : Known names others := by
  intro other hother
  rcases h.known other hother with ⟨⟨name, hname⟩, hplain⟩ | ⟨member, hmember, hname, hvalue⟩
  · refine ⟨name, hname, .inr ?_⟩
    exact hplain.skip_eq
  · rcases hknown member hmember with ⟨name, hsome, hskip⟩
    refine ⟨name, hname.symm.trans hsome, hskip.imp_right fun hskip => ?_⟩
    -- What has been changed is an object or an array that ends, and those can be passed over.
    rcases hvalue with hsame | ⟨role, hkept⟩
    · rw [← hsame, hskip]
    · exact hkept.container_reworded.skip_eq

section Filled

variable {α : Type} {read : Json → Except Failure α} {place : Place}

/-- A member that has to be there is read as before. -/
theorem filled (h : MembersAlike places members others) (hplace : place ∈ places)
    (habsence : place.absence = .never)
    (hread : ∀ value other, Kept place.role value other →
      ∀ a, read value = .ok a → read other = .ok a)
    {a : α} (hfilled : Filled read place.name members (some a)) :
    Filled read place.name others (some a) := by
  cases hfilled with
  | full hvalue ha =>
      rcases h.fields place hplace _ hvalue with ⟨other, hother, halike⟩
      -- The value is the same or cannot be told apart, and it cannot be missing.
      cases halike with
      | same => exact .full hother ha
      | kept hkept => exact .full hother (hread _ _ hkept a ha)
      | omitted hholds =>
          rw [habsence] at hholds
          exact hholds.elim

/-- A member that may be absent is read as before if its default is read as the one that
    is filled in. -/
theorem defaulted (h : MembersAlike places members others) (hplace : place ∈ places)
    {default : α}
    (hdefault : ∀ value, place.absence.Holds value → ∀ a, read value = .ok a → a = default)
    (hnull : place.absence = .null → read .null = .ok default)
    (hread : ∀ value other, Kept place.role value other →
      ∀ a, read value = .ok a → read other = .ok a)
    {a : α} (hread : Defaulted read place.name members default a) :
    Defaulted read place.name others default a := by
  rcases hread with ⟨slot, hfilled, rfl⟩
  cases hfilled with
  -- Nothing was there: it still is not, or the default is spelled out as null.
  | empty hnone =>
      rcases h.fields place hplace _ hnone with ⟨other, hother, halike⟩
      cases halike with
      | same => exact ⟨none, .empty hother, rfl⟩
      | null habsence => exact ⟨some default, .full hother (hnull habsence), rfl⟩
  -- A value was there: it is read as before, or it was the default and has been left out.
  | full hvalue ha =>
      rcases h.fields place hplace _ hvalue with ⟨other, hother, halike⟩
      cases halike with
      | same => exact ⟨some _, .full hother ha, rfl⟩
      | kept hkept => exact ⟨some _, .full hother (hread _ _ hkept _ ha), rfl⟩
      | omitted hholds => exact ⟨none, .empty hother, (hdefault _ hholds _ ha).symm⟩

end Filled

end MembersAlike

/-! ## Fields -/

/-- The values of places in two structures that say the same. -/
inductive FieldsAlike : List Place → List (Option Json) → List (Option Json) → Prop where
  | nil : FieldsAlike [] [] []
  | cons {place : Place} {places : List Place} {field other : Option Json}
    {fields others : List (Option Json)} : place.Alike field other →
    FieldsAlike places fields others → FieldsAlike (place :: places) (field :: fields)
      (other :: others)

theorem MembersAlike.fields? {places : List Place}
    {members others : List (Option String × Json)} (h : MembersAlike places members others)
    {fields : List (Option Json)}
    (hfields : (Contents.members members).fields? (places.map Place.name) = some fields) :
    ∃ others', (Contents.members others).fields? (places.map Place.name) = some others' ∧
      FieldsAlike places fields others' := by
  -- The places are cut down by the induction, the members are not, so only the fields are kept.
  have halike := h.fields
  clear h
  rw [Contents.fields?] at hfields ⊢
  induction places generalizing fields with
  | nil => exact ⟨[], rfl, Option.some.inj hfields ▸ .nil⟩
  | cons place places ih =>
      simp only [List.map_cons, List.mapM_cons, Option.bind_eq_bind,
        Option.bind_eq_some_iff] at hfields ⊢
      rcases hfields with ⟨field, hfield, rest, hrest, ⟨⟩⟩
      rcases halike place List.mem_cons_self field hfield with ⟨other, hother, hplace⟩
      rcases ih hrest fun place hplace => halike place (List.mem_cons_of_mem _ hplace) with
        ⟨others', hothers, hplaces⟩
      exact ⟨_, ⟨other, hother, others', hothers, rfl⟩, .cons hplace hplaces⟩

theorem FieldsAlike.refl {places : List Place} {fields : List (Option Json)}
    (h : fields.length = places.length) : FieldsAlike places fields fields := by
  induction places generalizing fields with
  | nil =>
      rw [List.eq_nil_of_length_eq_zero h]
      exact .nil
  | cons place places ih =>
      cases fields with
      | nil => cases h
      | cons field fields => exact .cons (.same field) (ih (Nat.succ.inj h))

/-- The role of the value at a position. -/
def roleAt (places : List Place) (index : Nat) : Role :=
  (places[index]?.map Place.role).getD .other

theorem FieldsAlike.set {places : List Place} {before after : List (Option Json)}
    {value other : Json} (hkept : Kept (roleAt places before.length) value other)
    (h : (before ++ some value :: after).length = places.length) :
    FieldsAlike places (before ++ some value :: after) (before ++ some other :: after) := by
  -- The places are counted off together with the items before the changed one.
  induction before generalizing places with
  | nil =>
      cases places with
      | nil => cases h
      | cons place places => exact .cons (.kept hkept) (.refl (Nat.succ.inj h))
  | cons field before ih =>
      cases places with
      | nil => cases h
      | cons place places => exact .cons (.same field) (ih hkept (Nat.succ.inj h))

theorem fieldsAlike_items {places : List Place} {before after : List Json} {value other : Json}
    (hkept : Kept (roleAt places before.length) value other) {fields : List (Option Json)}
    (h : (Contents.items (before ++ value :: after)).fields? (places.map Place.name) =
      some fields) :
    ∃ others, (Contents.items (before ++ other :: after)).fields? (places.map Place.name) =
      some others ∧ FieldsAlike places fields others := by
  rw [Contents.fields?] at h ⊢
  split at h
  · next hlength =>
    cases h
    have hsame : (before ++ other :: after).length = (before ++ value :: after).length := by
      simp
    refine ⟨_, by rw [hsame, if_pos hlength], ?_⟩
    simp only [List.map_append, List.map_cons, List.append_assoc, List.cons_append]
    refine .set (by rwa [List.length_map]) ?_
    simp at hlength ⊢
    omega
  · cases h

end Descriptor

end FunctionalOptions
