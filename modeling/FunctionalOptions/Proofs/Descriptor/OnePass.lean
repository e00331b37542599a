import FunctionalOptions.Descriptor.Json.Read
import FunctionalOptions.Proofs.Descriptor.Members
import FunctionalOptions.Proofs.Fallible
import Mathlib.Data.List.Forall2
import Mathlib.Data.List.Induction

/-!
# Structures Read in One Pass

Packages, fields, records and documents are read in one pass over their members, which fills one
slot after the other. What has been filled in the end is told by name: each slot holds what is
read of the one member of its name. So nothing is left of the order of the pass.

The pass is followed from its end. The last member either fills a slot that none before it has
filled, or is passed over, and this is the same for the four structures. Each of them only has to
say which slot takes which name.

## Main definitions

* `Filled`: A slot holds what is read of the one member of a name.
* `Known`: Every member has a name, and those of other names can be passed over.
* `Opens`: A tree is a structure with the members.
* `Defaulted`: A field that may be absent is read as a value.

## Theorems

* `readMembers_eq_ok_iff`: What is read of members, by what each of them adds.
* `readStructure_bind_eq_ok_iff`: A structure is read if it has come to its end and its members are.
* `readPackageTree_eq_ok_iff`, `readFieldTree_eq_ok_iff`, `readRecordTree_eq_ok_iff`,
  `readDocumentTree_eq_ok_iff`: The trees that are read as a structure.
* `readShapeTree_eq_ok_iff`: The trees that are read as a shape.
-/

namespace FunctionalOptions

namespace Descriptor

open Json (Failure)

/-! ## Slots -/

/-- A slot is filled once. -/
@[simp] theorem fill_eq_ok_iff {α : Type} {slot : Option α} {value : Except Failure α}
    {next : Option α} :
    fill slot value = .ok next ↔ slot = none ∧ ∃ a, value = .ok a ∧ next = some a := by
  cases slot with
  | some a => simp [fill]
  | none =>
      cases value with
      | error failure => simp [fill, Except.map]
      | ok a => simp [fill, Except.map, eq_comm]

@[simp] theorem map_eq_ok_iff {ε α β : Type} {f : α → β} {x : Except ε α} {b : β} :
    f <$> x = .ok b ↔ ∃ a, x = .ok a ∧ f a = b := by
  cases x with
  | error e => simp [Functor.map, Except.map]
  | ok a => simp [Functor.map, Except.map]

theorem require_eq_ok_iff {α : Type} {slot : Option α} {value : α} :
    require slot = .ok value ↔ slot = some value := by
  cases slot with
  | none => simp [require]
  | some a => simp [require]

/-- The slot of a name holds what is read of the one member of that name. -/
inductive Filled {α : Type} (read : Json → Except Failure α) (name : String)
    (members : List (Option String × Json)) : Option α → Prop where
  | empty : unique? name members = some none → Filled read name members none
  | full {value : Json} {a : α} : unique? name members = some (some value) →
    read value = .ok a → Filled read name members (some a)

/-- Every member has a name, and those of other names can be passed over. -/
def Known (names : List String) (members : List (Option String × Json)) : Prop :=
  ∀ member ∈ members, ∃ name, member.1 = some name ∧ (name ∈ names ∨ skip member.2 = .ok ())

section Append

variable {α : Type} {read : Json → Except Failure α} {name : String}
  {members : List (Option String × Json)} {slot : Option α}

theorem unique?_append (member : Option String × Json) :
    unique? name (members ++ [member]) = unique? name (member :: members) :=
  unique?_perm List.perm_append_comm

@[simp] theorem filled_nil_iff {α : Type} {read : Json → Except Failure α} {name : String}
    {slot : Option α} : Filled read name [] slot ↔ slot = none := by
  constructor
  · rintro (_ | ⟨h, _⟩)
    · rfl
    · cases h
  · rintro rfl
    exact .empty rfl

/-- A member of the name fills a slot that was empty. -/
@[simp] theorem filled_append_iff {value : Json} :
    Filled read name (members ++ [(some name, value)]) slot ↔
      Filled read name members none ∧ ∃ a, read value = .ok a ∧ slot = some a := by
  constructor
  · -- A slot that is empty has no member of its name, but there is this one.
    rintro (h | ⟨h, hread⟩)
    · rw [unique?_append, unique?_cons_eq_some_iff] at h
      cases h.2
    · rw [unique?_append, unique?_cons_eq_some_iff] at h
      cases h.2
      exact ⟨.empty h.1, _, hread, rfl⟩
  · rintro ⟨hempty, a, hread, rfl⟩
    -- The other way round, no member before it has the name, and so it is the one.
    cases hempty with
    | empty h =>
        refine .full ?_ hread
        rw [unique?_append, unique?_cons_eq_some_iff]
        exact ⟨h, rfl⟩

/-- A member of another name does not fill the slot. -/
@[simp] theorem filled_append_of_ne {member : Option String × Json} (h : member.1 ≠ some name) :
    Filled read name (members ++ [member]) slot ↔ Filled read name members slot := by
  have hsame : unique? name (members ++ [member]) = unique? name members := by
    rw [unique?_append, unique?_cons_of_ne h]
  constructor
  · rintro (h | ⟨h, hread⟩)
    · exact .empty (hsame ▸ h)
    · exact .full (hsame ▸ h) hread
  · rintro (h | ⟨h, hread⟩)
    · exact .empty (hsame.trans h)
    · exact .full (hsame.trans h) hread

theorem known_append_iff {names : List String} {other : String} {value : Json} :
    Known names (members ++ [(some other, value)]) ↔
      Known names members ∧ (other ∈ names ∨ skip value = .ok ()) := by
  simp only [Known, List.forall_mem_append, List.forall_mem_singleton, Option.some.injEq,
    exists_eq_left']

end Append

/-- The last member is read into what has been read before. -/
theorem readMembers_append_eq_ok_iff {σ : Type} {take : σ → String → Json → Except Failure σ}
    {sofar last : σ} {members : List (Option String × Json)} {member : Option String × Json} :
    readMembers take sofar (members ++ [member]) = .ok last ↔
      ∃ name next, member.1 = some name ∧ readMembers take sofar members = .ok next ∧
        take next name member.2 = .ok last := by
  rcases member with ⟨name, value⟩
  -- The members are read from the front, so it is along them that the last one is reached.
  induction members generalizing sofar with
  | nil =>
      cases name with
      | none => simp [readMembers]
      | some name =>
          simp only [List.nil_append, readMembers, Except.bind_eq_ok_iff]
          simp
  | cons first rest ih =>
      rcases first with ⟨_ | other, value⟩
      · simp [readMembers]
      · simp only [List.cons_append, readMembers, Except.bind_eq_ok_iff, ih]
        constructor
        · rintro ⟨next, htake, name, last, hname, hrest, hlast⟩
          exact ⟨name, last, hname, ⟨next, htake, hrest⟩, hlast⟩
        · rintro ⟨name, last, hname, ⟨next, htake, hrest⟩, hlast⟩
          exact ⟨next, htake, name, last, hname, hrest, hlast⟩

/-- What is read of members is told by what is read of no members and by what one more
    of them adds. -/
theorem readMembers_eq_ok_iff {σ : Type} {take : σ → String → Json → Except Failure σ}
    {start : σ} {names : List String} {R : List (Option String × Json) → σ → Prop}
    (hnil : ∀ slots, R [] slots ↔ start = slots)
    (happend : ∀ members name value slots,
      (∃ sofar, (Known names members ∧ R members sofar) ∧
        take sofar name value = .ok slots) ↔
      (Known names members ∧ (name ∈ names ∨ skip value = .ok ())) ∧
        R (members ++ [(some name, value)]) slots)
    {members : List (Option String × Json)} {slots : σ} :
    readMembers take start members = .ok slots ↔ Known names members ∧ R members slots := by
  -- From the end, since what a member adds is said of the slots as they are before it.
  induction members using List.reverseRecOn generalizing slots with
  | nil =>
      rw [hnil]
      constructor
      · intro h
        exact ⟨List.forall_mem_nil _, Except.ok.inj h⟩
      · rintro ⟨-, rfl⟩
        rfl
  | append_singleton members member ih =>
      rcases member with ⟨name, value⟩
      rw [readMembers_append_eq_ok_iff]
      cases name with
      | none =>
          constructor
          · rintro ⟨_, _, ⟨⟩, -⟩
          · -- A member whose name cannot be read is an error, and it is not among the known ones.
            rintro ⟨hknown, -⟩
            rcases hknown _ (List.mem_append_right _ List.mem_cons_self) with ⟨_, hname, -⟩
            cases hname
      | some name =>
          -- What this member adds is the assumption on the structure; the rest is the induction.
          rw [known_append_iff, ← happend]
          constructor
          · rintro ⟨_, next, ⟨⟩, hread, htake⟩
            exact ⟨next, ih.mp hread, htake⟩
          · rintro ⟨next, hread, htake⟩
            exact ⟨name, next, rfl, ih.mpr hread, htake⟩

/-! ## The four structures -/

section Structures

variable {members : List (Option String × Json)} {depth : Nat}

theorem PackageSlots.exists_iff {p : PackageSlots → Prop} :
    (∃ slots, p slots) ↔ ∃ path name, p ⟨path, name⟩ :=
  ⟨fun h => h.elim fun _ h => ⟨_, _, h⟩, fun h => h.elim fun _ h => h.elim fun _ h => ⟨_, h⟩⟩

theorem PackageSlots.readMembers_eq_ok_iff {slots : PackageSlots} :
    readMembers PackageSlots.take {} members = .ok slots ↔ Known ["path", "name"] members ∧
      Filled readText "path" members slots.path ∧
      Filled readOptionalText "name" members slots.name := by
  refine Descriptor.readMembers_eq_ok_iff (R := fun members (slots : PackageSlots) =>
    Filled readText "path" members slots.path ∧
      Filled readOptionalText "name" members slots.name) ?_ ?_
  · rintro ⟨path, name⟩
    simp [eq_comm]
  · rintro members name value ⟨path, short⟩
    by_cases hpath : name = "path"
    · simp [take, PackageSlots.exists_iff, hpath]
      grind
    · by_cases hname : name = "name"
      · simp [take, PackageSlots.exists_iff, hname]
        grind
      · simp [take, hpath, hname]
        grind

theorem FieldSlots.exists_iff {p : FieldSlots → Prop} :
    (∃ slots, p slots) ↔ ∃ name type tag, p ⟨name, type, tag⟩ :=
  ⟨fun h => h.elim fun _ h => ⟨_, _, _, h⟩,
    fun h => h.elim fun _ h => h.elim fun _ h => h.elim fun _ h => ⟨_, h⟩⟩

theorem FieldSlots.readMembers_eq_ok_iff {slots : FieldSlots} :
    readMembers (FieldSlots.take depth) {} members = .ok slots ↔
      Known ["name", "type", "tag"] members ∧
      Filled readText "name" members slots.name ∧
      Filled (readShapeTree depth) "type" members slots.type ∧
      Filled readOptionalText "tag" members slots.tag := by
  refine Descriptor.readMembers_eq_ok_iff (R := fun members (slots : FieldSlots) =>
    Filled readText "name" members slots.name ∧
      Filled (readShapeTree depth) "type" members slots.type ∧
      Filled readOptionalText "tag" members slots.tag) ?_ ?_
  · rintro ⟨name, type, tag⟩
    simp [eq_comm]
  · rintro members name value ⟨short, type, tag⟩
    by_cases hname : name = "name"
    · simp [take, FieldSlots.exists_iff, hname]
      grind
    · by_cases htype : name = "type"
      · simp [take, FieldSlots.exists_iff, htype]
        grind
      · by_cases htag : name = "tag"
        · simp [take, FieldSlots.exists_iff, htag]
          grind
        · simp [take, hname, htype, htag]
          grind

theorem RecordSlots.exists_iff {p : RecordSlots → Prop} :
    (∃ slots, p slots) ↔ ∃ name fields, p ⟨name, fields⟩ :=
  ⟨fun h => h.elim fun _ h => ⟨_, _, h⟩, fun h => h.elim fun _ h => h.elim fun _ h => ⟨_, h⟩⟩

theorem RecordSlots.readMembers_eq_ok_iff {slots : RecordSlots} :
    readMembers (RecordSlots.take depth) {} members = .ok slots ↔
      Known ["name", "fields"] members ∧
      Filled readText "name" members slots.name ∧
      Filled (readList depth readFieldTree) "fields" members slots.fields := by
  refine Descriptor.readMembers_eq_ok_iff (R := fun members (slots : RecordSlots) =>
    Filled readText "name" members slots.name ∧
      Filled (readList depth readFieldTree) "fields" members slots.fields) ?_ ?_
  · rintro ⟨name, fields⟩
    simp [eq_comm]
  · rintro members name value ⟨short, fields⟩
    by_cases hname : name = "name"
    · simp [take, RecordSlots.exists_iff, hname]
      grind
    · by_cases hfields : name = "fields"
      · simp [take, RecordSlots.exists_iff, hfields]
        grind
      · simp [take, hname, hfields]
        grind

theorem DocumentSlots.exists_iff {p : DocumentSlots → Prop} :
    (∃ slots, p slots) ↔ ∃ package records, p ⟨package, records⟩ :=
  ⟨fun h => h.elim fun _ h => ⟨_, _, h⟩, fun h => h.elim fun _ h => h.elim fun _ h => ⟨_, h⟩⟩

theorem DocumentSlots.readMembers_eq_ok_iff {slots : DocumentSlots} :
    readMembers (DocumentSlots.take depth) {} members = .ok slots ↔
      Known ["package", "records"] members ∧
      Filled (readPackageTree depth) "package" members slots.package ∧
      Filled (readList depth readRecordTree) "records" members slots.records := by
  refine Descriptor.readMembers_eq_ok_iff (R := fun members (slots : DocumentSlots) =>
    Filled (readPackageTree depth) "package" members slots.package ∧
      Filled (readList depth readRecordTree) "records" members slots.records) ?_ ?_
  · rintro ⟨package, records⟩
    simp [eq_comm]
  · rintro members name value ⟨package, records⟩
    by_cases hpackage : name = "package"
    · simp [take, DocumentSlots.exists_iff, hpackage]
      grind
    · by_cases hrecords : name = "records"
      · simp [take, DocumentSlots.exists_iff, hrecords]
        grind
      · simp [take, hpackage, hrecords]
        grind

end Structures

/-! ## Whole structures -/

/-- The tree is a structure with the members. An array stands for as many of the names as it
    has items. -/
inductive Opens (names : List String) : Json → List (Option String × Json) → Prop where
  | object {members : List (Option String × Json)} : Opens names (.object members none) members
  | array {items : List Json} : items.length ≤ names.length →
    Opens names (.array items none) ((names.map some).zip items)

theorem ended_eq_ok_iff {stop : Option Json.Stop} : ended stop = .ok () ↔ stop = none := by
  cases stop with
  | none => simp [ended]
  | some stop => simp [ended]

/-- A structure that was closed is taken apart, with one level less left. -/
theorem readStructure_eq_ok_iff {depth inside : Nat} {names : List String} {tree : Json}
    {members : List (Option String × Json)} :
    readStructure depth names tree = .ok (inside, members, none) ↔
      depth = inside + 1 ∧ Opens names tree members := by
  constructor
  · intro h
    unfold readStructure at h
    split at h
    · cases h
    · cases h
    · cases h
      exact ⟨rfl, .object⟩
    · next items stop depth =>
      -- An array may be shorter than the names, but not longer.
      by_cases hlength : names.length < items.length
      · rw [if_pos hlength] at h
        cases h
      · rw [if_neg hlength] at h
        cases h
        exact ⟨rfl, .array (Nat.le_of_not_lt hlength)⟩
    · cases h
  · rintro ⟨rfl, hopens⟩
    cases hopens with
    | object => rfl
    | array hlength => rw [readStructure, if_neg (Nat.not_lt_of_le hlength)]

/-- The tree is a structure, and what is said holds of its members and the depth that is
    left for them. -/
def OpensWith (names : List String) (depth : Nat) (tree : Json)
    (p : Nat → List (Option String × Json) → Prop) : Prop :=
  ∃ inside members, depth = inside + 1 ∧ Opens names tree members ∧ p inside members

/-- A structure is read if it has come to its end and its members are. -/
theorem readStructure_bind_eq_ok_iff {σ α : Type} {depth : Nat} {names : List String}
    {tree : Json} (read : Nat → List (Option String × Json) → Except Failure σ)
    {finish : σ → Except Failure α} {value : α}
    {p : Nat → List (Option String × Json) → Prop}
    (h : ∀ inside members,
      (∃ slots, read inside members = .ok slots ∧ finish slots = .ok value) ↔
        p inside members) :
    (do
      let (inside, members, stop) ← readStructure depth names tree
      let slots ← read inside members
      ended stop
      finish slots) = .ok value ↔ OpensWith names depth tree p := by
  simp only [Except.bind_eq_ok_iff, OpensWith, ← h]
  constructor
  · -- The members are read before it is known that the structure has come to its end.
    rintro ⟨⟨inside, members, stop⟩, hstructure, slots, hread, ⟨⟩, hended, hfinish⟩
    obtain rfl : stop = none := ended_eq_ok_iff.mp hended
    rw [readStructure_eq_ok_iff] at hstructure
    exact ⟨inside, members, hstructure.1, hstructure.2, slots, hread, hfinish⟩
  · rintro ⟨inside, members, hdepth, hopens, slots, hread, hfinish⟩
    exact ⟨_, readStructure_eq_ok_iff.mpr ⟨hdepth, hopens⟩, slots, hread, (), rfl, hfinish⟩

/-- The field that may be absent is read as the value. -/
def Defaulted {α : Type} (read : Json → Except Failure α) (name : String)
    (members : List (Option String × Json)) (default value : α) : Prop :=
  ∃ slot, Filled read name members slot ∧ slot.getD default = value

section Readers

variable {depth : Nat} {tree : Json}

theorem readPackageTree_eq_ok_iff {package : Package} :
    readPackageTree depth tree = .ok package ↔
      OpensWith ["path", "name"] depth tree fun _ members =>
        Known ["path", "name"] members ∧ Filled readText "path" members (some package.path) ∧
          Defaulted readOptionalText "name" members none package.name := by
  refine readStructure_bind_eq_ok_iff (fun _ => readMembers PackageSlots.take {})
    fun inside members => ?_
  simp only [PackageSlots.exists_iff, PackageSlots.readMembers_eq_ok_iff, Except.bind_eq_ok_iff,
    require_eq_ok_iff]
  -- The path has to be there, and its slot is full. The name may be absent, and its slot is either.
  constructor
  · rintro ⟨_, name, ⟨hknown, hpath, hname⟩, path, rfl, h⟩
    cases h
    exact ⟨hknown, hpath, name, hname, rfl⟩
  · rintro ⟨hknown, hpath, name, hname, h⟩
    exact ⟨_, name, ⟨hknown, hpath, hname⟩, package.path, rfl, congrArg _ (by rw [h])⟩

theorem readFieldTree_eq_ok_iff {field : Field} :
    readFieldTree depth tree = .ok field ↔
      OpensWith ["name", "type", "tag"] depth tree fun inside members =>
        Known ["name", "type", "tag"] members ∧
          Filled readText "name" members (some field.name) ∧
          Filled (readShapeTree inside) "type" members (some field.type) ∧
          Defaulted readOptionalText "tag" members none field.tag := by
  refine readStructure_bind_eq_ok_iff (fun inside => readMembers (FieldSlots.take inside) {})
    fun inside members => ?_
  simp only [FieldSlots.exists_iff, FieldSlots.readMembers_eq_ok_iff, Except.bind_eq_ok_iff,
    require_eq_ok_iff]
  constructor
  · rintro ⟨_, _, tag, ⟨hknown, hname, htype, htag⟩, name, rfl, type, rfl, h⟩
    cases h
    exact ⟨hknown, hname, htype, tag, htag, rfl⟩
  · rintro ⟨hknown, hname, htype, tag, htag, h⟩
    exact ⟨_, _, tag, ⟨hknown, hname, htype, htag⟩, field.name, rfl, field.type, rfl,
      congrArg _ (by rw [h])⟩

theorem readRecordTree_eq_ok_iff {record : Record} :
    readRecordTree depth tree = .ok record ↔
      OpensWith ["name", "fields"] depth tree fun inside members =>
        Known ["name", "fields"] members ∧
          Filled readText "name" members (some record.name) ∧
          Defaulted (readList inside readFieldTree) "fields" members [] record.fields := by
  refine readStructure_bind_eq_ok_iff (fun inside => readMembers (RecordSlots.take inside) {})
    fun inside members => ?_
  simp only [RecordSlots.exists_iff, RecordSlots.readMembers_eq_ok_iff, Except.bind_eq_ok_iff,
    require_eq_ok_iff]
  constructor
  · rintro ⟨_, fields, ⟨hknown, hname, hfields⟩, name, rfl, h⟩
    cases h
    exact ⟨hknown, hname, fields, hfields, rfl⟩
  · rintro ⟨hknown, hname, fields, hfields, h⟩
    exact ⟨_, fields, ⟨hknown, hname, hfields⟩, record.name, rfl, congrArg _ (by rw [h])⟩

theorem readDocumentTree_eq_ok_iff {document : Document} :
    readDocumentTree depth tree = .ok document ↔
      OpensWith ["package", "records"] depth tree fun inside members =>
        Known ["package", "records"] members ∧
          Filled (readPackageTree inside) "package" members (some document.package) ∧
          Defaulted (readList inside readRecordTree) "records" members [] document.records := by
  refine readStructure_bind_eq_ok_iff (fun inside => readMembers (DocumentSlots.take inside) {})
    fun inside members => ?_
  simp only [DocumentSlots.exists_iff, DocumentSlots.readMembers_eq_ok_iff,
    Except.bind_eq_ok_iff, require_eq_ok_iff]
  constructor
  · rintro ⟨_, records, ⟨hknown, hpackage, hrecords⟩, package, rfl, h⟩
    cases h
    exact ⟨hknown, hpackage, records, hrecords, rfl⟩
  · rintro ⟨hknown, hpackage, records, hrecords, h⟩
    exact ⟨_, records, ⟨hknown, hpackage, hrecords⟩, document.package, rfl,
      congrArg _ (by rw [h])⟩

theorem readShapeTree_eq_ok_iff {shape : Shape} :
    readShapeTree depth tree = .ok shape ↔
      checkTagged depth tree = .ok () ∧ Shape.ofTree? depthLimit tree = some shape := by
  rw [readShapeTree, Except.check_bind_eq_ok_iff]
  cases Shape.ofTree? depthLimit tree <;> simp

/-- What is read of items, one by one. -/
theorem readItems_eq_ok_iff {α : Type} {read : Json → Except Failure α} {items : List Json}
    {values : List α} :
    readItems read items = .ok values ↔
      List.Forall₂ (fun item value => read item = .ok value) items values := by
  induction items generalizing values with
  | nil =>
      rw [readItems, List.forall₂_nil_left_iff]
      exact ⟨fun h => (Except.ok.inj h).symm, fun h => congrArg _ h.symm⟩
  | cons item rest ih =>
      simp only [readItems, Except.bind_eq_ok_iff, ih, List.forall₂_cons_left_iff]
      constructor
      · rintro ⟨value, hvalue, others, hothers, h⟩
        cases h
        exact ⟨value, others, hvalue, hothers, rfl⟩
      · rintro ⟨value, others, hvalue, hothers, rfl⟩
        exact ⟨value, hvalue, others, hothers, rfl⟩

/-- What is read of a list is read of its items, one level further in. -/
theorem readList_eq_ok_iff {α : Type} {read : Nat → Json → Except Failure α}
    {values : List α} :
    readList depth read tree = .ok values ↔ ∃ inside items, depth = inside + 1 ∧
      tree = .array items none ∧
        List.Forall₂ (fun item value => read inside item = .ok value) items values := by
  constructor
  · intro h
    unfold readList at h
    split at h
    · cases h
    · next items stop inside =>
      simp only [Except.bind_eq_ok_iff, readItems_eq_ok_iff] at h
      -- The list has come to its end if nothing has stopped it.
      rcases h with ⟨_, hitems, ⟨⟩, hended, h⟩
      cases h
      obtain rfl : stop = none := ended_eq_ok_iff.mp hended
      exact ⟨inside, items, rfl, rfl, hitems⟩
    · cases h
  · rintro ⟨inside, items, rfl, rfl, hitems⟩
    rw [readList, readItems_eq_ok_iff.mpr hitems]
    rfl

end Readers

end Descriptor

end FunctionalOptions
