import FunctionalOptions.Proofs.Descriptor.Presentation
import Mathlib.Logic.Relation

/-!
# Shapes That Say the Same

A shape is first checked and gathered as a whole, and then read again by its kind. The kind is a
word or a number, so that it is never itself put into other words, and it is found among the
members wherever it comes. What is left of the members are the fields of the kind, which say the
same as before.

With shapes, the last of the structures is one that keeps what is read of it. So a tree that is
put into other words in one place is kept, by induction on the place, and what is read of a
document stays the same however often this happens.

## Theorems

* `MembersAlike.unique?_kind`: The kind is never put into other words.
* `Alike.checkTagged`, `Alike.ofTree?`: Shapes that say the same.
* `Alike.kept`: Nothing that is read can tell a structure from one that says the same.
* `Reworded.kept`: Nor can it tell a tree from one in other words.
* `readDocumentTree_reworded`: However often a tree is put into other words, the same document is
  read.
-/

namespace FunctionalOptions

namespace Descriptor

/-! ## The kind -/

theorem Kind.kind_notMem_fieldNames (kind : Kind) : "kind" ∉ kind.fieldNames := by
  cases kind <;> decide

theorem kind?_isSome_of_checkKind {tree : Json} (h : checkKind tree = .ok ()) :
    (kind? tree).isSome := by
  unfold checkKind at h
  split at h
  · next word =>
    split at h
    · next hword => exact hword
    · cases h
  · cases h

namespace MembersAlike

variable {place : Place} {places : List Place} {members others : List (Option String × Json)}

theorem tail (h : MembersAlike (place :: places) members others) :
    MembersAlike places members others where
  fields other hother := h.fields other (List.mem_cons_of_mem _ hother)
  known := h.known

/-- What is put into other words is never the kind, which is read as a word or number. -/
theorem unique?_kind (h : MembersAlike (⟨"kind", .other, .never⟩ :: places) members others)
    {value : Json} (hvalue : unique? "kind" members = some (some value))
    (hkind : (kind? value).isSome) : unique? "kind" others = some (some value) := by
  rcases h.fields _ List.mem_cons_self _ hvalue with ⟨other, hother, halike⟩
  cases halike with
  | same => exact hother
  -- A kind is no object and no array, so it cannot be put into other words.
  | kept hkept =>
      rw [scalar_kind? _ hkept.container] at hkind
      cases hkind
  | omitted hholds => exact hholds.elim

end MembersAlike

/-- The kind does not count as a field. -/
theorem fields?_filter_kind (kind : Kind) (members : List (Option String × Json)) :
    (Contents.members (members.filter (·.1 != some "kind"))).fields? kind.fieldNames =
      (Contents.members members).fields? kind.fieldNames := by
  -- Names are looked up one by one, and none of them is that of the kind.
  have hnames (names : List String) (h : "kind" ∉ names) :
      (Contents.members (members.filter (·.1 != some "kind"))).fields? names =
        (Contents.members members).fields? names := by
    simp only [Contents.fields?]
    induction names with
    | nil => rfl
    | cons name names ih =>
        rw [List.mapM_cons, List.mapM_cons, ih fun hmem => h (List.mem_cons_of_mem _ hmem),
          unique?_filter_ne (ne_of_mem_of_not_mem List.mem_cons_self h)]
  exact hnames _ kind.kind_notMem_fieldNames

section Shapes

variable {depth : Nat} {members others : List (Option String × Json)} {tree reworded : Json}

theorem tagged?_object_eq_some_iff {kind : Kind} {contents : Contents} :
    tagged? (.object members none) = some (kind, contents) ↔
      (∃ value, unique? "kind" members = some (some value) ∧ kind? value = some kind) ∧
        contents = .members (members.filter (·.1 != some "kind")) := by
  unfold tagged?
  simp only [contents?]
  split
  · next value hvalue =>
    rw [Option.map_eq_some_iff, hvalue]
    constructor
    · rintro ⟨_, hkind, ⟨⟩⟩
      exact ⟨⟨value, rfl, hkind⟩, rfl⟩
    · rintro ⟨⟨_, ⟨⟩, hkind⟩, rfl⟩
      exact ⟨kind, hkind, rfl⟩
  · next hnone =>
    constructor
    · rintro ⟨⟩
    · rintro ⟨⟨value, hvalue, -⟩, -⟩
      exact absurd hvalue (hnone value)

/-- A shape that says the same passes the check. -/
theorem Alike.checkTagged (h : Alike .shape tree reworded)
    (hcheck : checkTagged depth tree = .ok ()) : checkTagged depth reworded = .ok () := by
  cases h with
  | object halike =>
      rw [checkTagged_object_eq_ok_iff] at hcheck ⊢
      rcases hcheck with ⟨inside, hdepth, hmembers, value, hvalue, hkind⟩
      exact ⟨inside, hdepth, halike.checkedIn_of hmembers, value,
        halike.unique?_kind hvalue (kind?_isSome_of_checkKind hkind), hkind⟩
  | @array before after value other hkept =>
      rw [checkTagged_array_eq_ok_iff] at hcheck ⊢
      rcases hcheck with ⟨inside, first, rest, hdepth, hitems, hkind, hrest⟩
      -- The first item of an array is the kind, and only those behind it may be changed.
      cases before with
      | nil =>
          cases hitems
          have hnone := kind?_isSome_of_checkKind hkind
          rw [scalar_kind? _ hkept.container] at hnone
          cases hnone
      | cons first before =>
          rw [List.cons_append] at hitems
          cases hitems
          refine ⟨inside, first, before ++ other :: after, hdepth, rfl, hkind, ?_⟩
          -- The check goes through the items one by one, and only one of them is not what it was.
          simp only [List.forall_mem_append, List.forall_mem_cons] at hrest ⊢
          exact ⟨hrest.1, hkept.check inside hrest.2.1, hrest.2.2⟩

/-- A shape that says the same is the same shape. -/
theorem Alike.ofTree? (h : Alike .shape tree reworded) {shape : Shape}
    (hread : Shape.ofTree? depth tree = some shape) :
    Shape.ofTree? depth reworded = some shape := by
  cases depth with
  | zero => cases hread
  | succ depth =>
  simp only [Shape.ofTree?, Option.bind_eq_bind, Option.bind_eq_some_iff] at hread ⊢
  rcases hread with ⟨⟨kind, contents⟩, htagged, fields, hfields, hread⟩
  cases h with
  | @object members others halike =>
      rw [tagged?_object_eq_some_iff] at htagged
      rcases htagged with ⟨⟨value, hvalue, hkind⟩, rfl⟩
      -- The kind is found among the members and tells which places there are.
      have hplaces : Role.shape.places (.members members) =
          ⟨"kind", .other, .never⟩ :: kind.places := by
        simp only [Role.places, kindOf?, hvalue, hkind, Option.map_some, Option.getD_some]
      rw [hplaces] at halike
      rw [fields?_filter_kind, ← kind.map_name_places] at hfields
      rcases halike.tail.fields? hfields with ⟨others', hothers, hsame⟩
      refine ⟨(kind, .members (others.filter (·.1 != some "kind"))), ?_, others', ?_,
        hsame.ofFields? hread⟩
      · exact tagged?_object_eq_some_iff.mpr ⟨⟨value, halike.unique?_kind hvalue (by
          rw [hkind]; rfl), hkind⟩, rfl⟩
      · rw [fields?_filter_kind, ← kind.map_name_places, hothers]
  | @array before after value other hkept =>
      cases before with
      | nil =>
          -- The first item is the kind, which is never changed.
          rcases Option.map_eq_some_iff.mp htagged with ⟨_, hkind, -⟩
          rw [scalar_kind? _ hkept.container] at hkind
          cases hkind
      | cons first before =>
          rcases Option.map_eq_some_iff.mp htagged with ⟨_, hkind, ⟨⟩⟩
          -- Behind the kind, the items are those of its places, counted from the first one again.
          have hrole : Kept (roleAt kind.places before.length) value other := by
            simpa only [Role.ofItem, List.cons_append, Role.places, kindOf?, hkind,
              Option.map_some, Option.getD_some, List.length_cons, List.getElem?_cons_succ,
              roleAt] using hkept
          rw [← kind.map_name_places] at hfields
          rcases fieldsAlike_items hrole hfields with ⟨others', hothers, hsame⟩
          refine ⟨(kind, .items (before ++ other :: after)), ?_, others', ?_,
            hsame.ofFields? hread⟩
          · exact Option.map_eq_some_iff.mpr ⟨kind, hkind, rfl⟩
          · rw [← kind.map_name_places, hothers]

end Shapes

/-! ## Any structure -/

section Check

variable {role : Role} {depth : Nat} {tree reworded : Json}

theorem Alike.container (h : Alike role tree reworded) : Container tree := by
  cases h with
  | object => exact .object _
  | array => exact .array _

theorem Alike.container_reworded (h : Alike role tree reworded) : Container reworded := by
  cases h with
  | object => exact .object _
  | array => exact .array _

/-- What says the same passes the check, whatever it is read as. -/
theorem Alike.check (h : Alike role tree reworded) (hcheck : check depth tree = .ok ()) :
    Descriptor.check depth reworded = .ok () := by
  cases h with
  | object halike =>
      rw [check_object_eq_ok_iff] at hcheck ⊢
      rcases hcheck with ⟨inside, hdepth, hmembers⟩
      exact ⟨inside, hdepth, halike.check_of hmembers⟩
  | array hkept =>
      rw [check_array_eq_ok_iff] at hcheck ⊢
      rcases hcheck with ⟨inside, hdepth, hitems⟩
      refine ⟨inside, hdepth, ?_⟩
      simp only [List.forall_mem_append, List.forall_mem_cons] at hitems ⊢
      exact ⟨hitems.1, hkept.check inside hitems.2.1, hitems.2.2⟩

theorem Alike.readItems (h : Alike (.list role) tree reworded) :
    Role.Reads (.list role) tree reworded := by
  cases h with
  | object => rintro _ ⟨⟩
  | @array before after value other hkept =>
      rintro _ ⟨⟩
      refine ⟨_, rfl, ?_⟩
      -- The items before and behind the changed one are the same.
      have hsame (items : List Json) : List.Forall₂
          (fun item other => item = other ∨ Container item ∧ role.Reads item other) items items :=
        List.forall₂_same.mpr fun _ _ => .inl rfl
      exact List.rel_append (hsame before)
        (.cons (.inr ⟨hkept.container, hkept.reads⟩) (hsame after))

/-- Nothing that is read can tell a structure from one that says the same. -/
theorem Alike.kept (h : Alike role tree reworded)
    (hother : role = .other → Role.other.Reads tree reworded) : Kept role tree reworded where
  container := h.container
  container_reworded := h.container_reworded
  check _ := h.check
  reads := by
    -- Each role has its reader, and for the rest, of which no structure is read, it is assumed.
    cases role with
    | document => exact fun _ _ => h.readDocumentTree
    | package => exact ⟨fun _ _ => h.readPackageTree, fun _ => h.packageOfTree?⟩
    | record => exact fun _ _ => h.readRecordTree
    | field => exact fun _ _ => h.readFieldTree
    | param => exact fun _ _ => h.paramOfTree?
    | shape => exact ⟨fun _ => h.checkTagged, fun _ _ => h.ofTree?⟩
    | list role => exact h.readItems
    | other => exact hother rfl

end Check

/-! ## Directions -/

section Directions

variable {members others : List (Option String × Json)}

theorem direction?_object_eq_some_iff {dir : Go.Direction} :
    direction? (.object members none) = some dir ↔ ∃ word value,
      members = [(some word, value)] ∧ (value = .null ∨ ∃ stop, value = .object [] stop) ∧
        Go.Direction.ofWord? word = some dir := by
  constructor
  · intro h
    -- A direction is an object with one member, whose name is the word.
    unfold direction? at h
    split at h
    · next heq => cases heq
    · next word _ heq =>
      cases heq
      exact ⟨word, _, rfl, .inl rfl, h⟩
    · next word stop _ heq =>
      cases heq
      exact ⟨word, _, rfl, .inr ⟨stop, rfl⟩, h⟩
    · cases h
  · rintro ⟨word, value, rfl, rfl | ⟨stop, rfl⟩, h⟩
    · exact h
    · exact h

theorem otherReads_permute (h : members.Perm others) :
    Role.other.Reads (.object members none) (.object others none) := by
  constructor
  · intro dir hdir
    rw [direction?_object_eq_some_iff] at hdir
    rcases hdir with ⟨word, value, rfl, hvalue, hword⟩
    rw [List.singleton_perm.mp h |>.symm, direction?_object_eq_some_iff]
    exact ⟨word, value, rfl, hvalue, hword⟩
  · intro hnil
    cases hnil
    rw [List.nil_perm.mp h]

theorem otherReads_member {name : Option String} {value other : Json}
    (h : Kept .other value other) :
    Role.other.Reads (.object ((name, value) :: members) none)
      (.object ((name, other) :: members) none) := by
  constructor
  · intro dir hdir
    rw [direction?_object_eq_some_iff] at hdir ⊢
    -- The value of the word is null or an empty object. Only the latter can be in other words.
    rcases hdir with ⟨word, value, ⟨⟩, rfl | ⟨stop, rfl⟩, hword⟩
    · cases h.container
    · cases h.container
      exact ⟨word, other, rfl, .inr ⟨none, h.reads.2 rfl⟩, hword⟩
  · rintro ⟨⟩

theorem otherReads_item {before after : List Json} {item other : Json} :
    Role.other.Reads (.array (before ++ item :: after) none)
      (.array (before ++ other :: after) none) := by
  constructor
  · rintro _ ⟨⟩
  · rintro ⟨⟩

end Directions

/-! ## Rewording -/

/-- A place is found by its name. -/
theorem find?_name_eq_some {places : List Place} {place : Place}
    (hnames : (places.map Place.name).Nodup) (hplace : place ∈ places) :
    places.find? (some ·.name == some place.name) = some place := by
  cases hfind : places.find? (some ·.name == some place.name) with
  | none => exact absurd (beq_self_eq_true _) (List.find?_eq_none.mp hfind place hplace)
  -- What is found has the name, and there is only one place that does.
  | some found =>
      have hname := List.find?_some hfind
      rw [beq_iff_eq] at hname
      rw [List.inj_on_of_nodup_map hnames (List.mem_of_find?_eq_some hfind) hplace
        (Option.some.inj hname)]

theorem Role.role_eq_ofMember {role : Role} {members : List (Option String × Json)}
    {name : Option String} {place : Place} (hplace : place ∈ role.places (.members members))
    (hname : name = some place.name) : place.role = role.ofMember members name := by
  subst hname
  rw [Role.ofMember, find?_name_eq_some (role.nodup_places _) hplace]
  rfl

/-- A tree that is put into other words in one place can be told from the original by
    nobody. -/
theorem Reworded.kept {role : Role} {tree reworded : Json} (h : Reworded role tree reworded) :
    Kept role tree reworded := by
  -- The first four change the members here, the other two a value that lies further in.
  induction h with
  | permute hperm =>
      exact Alike.kept (.object (.permute hperm)) fun _ => otherReads_permute hperm
  | insert hstructure hname hplain =>
      refine Alike.kept (.object (.insert hname hplain)) ?_
      rintro rfl
      cases hstructure
  | @drop role _ _ _ hplace hholds =>
      refine Alike.kept (.object (.drop (role.nodup_places _) hplace hholds)) ?_
      rintro rfl
      cases hplace
  | @null role _ _ hplace habsence habsent =>
      refine Alike.kept (.object (.null (role.nodup_places _) hplace habsence habsent)) ?_
      rintro rfl
      cases hplace
  | member _ ih =>
      refine Alike.kept (.object (.change (fun _ => Role.role_eq_ofMember) ih)) ?_
      rintro rfl
      exact otherReads_member ih
  | item _ ih =>
      refine Alike.kept (.array ih) ?_
      rintro rfl
      exact otherReads_item

/-- However often a tree is put into other words, the same document is read. -/
theorem readDocumentTree_reworded {tree reworded : Json}
    (h : Relation.ReflTransGen (Reworded .document) tree reworded) {depth : Nat}
    {document : Document} (hread : readDocumentTree depth tree = .ok document) :
    readDocumentTree depth reworded = .ok document := by
  -- Step by step, with the last one at the end: each keeps whatever is read of the tree before it.
  induction h with
  | refl => exact hread
  | tail _ hstep ih => exact hstep.kept.reads depth document ih

end Descriptor

end FunctionalOptions
