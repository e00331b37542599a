import FunctionalOptions.Proofs.Descriptor.OnePass
import FunctionalOptions.Proofs.Descriptor.Reworded

/-!
# What Rewording Has to Keep

When one value of a structure is put into other words, those who read the structure read that
value, too, each in its own way. So what is kept of a value is what any of them can see: what is
read of it in its role, and whether its text passes the check. A structure in the place of a
scalar is read as nothing, before and after.

A package and a shape are read in two ways, since a package also comes up inside of shapes.

## Main definitions

* `Role.Reads`: What is read of a tree in a role is read of the other one, too.
* `Kept`: Two trees that cannot be told apart, as far as the first one is read.
* `Keeps`: A reader reads of the other tree what it reads of the one.

## Theorems

* `Scalar.keeps`: A scalar is read of no container.
* `mapM_eq_some_of_forall₂`: Items that are kept are read as the same.
* `Kept.keeps_list`, `Kept.readList`: Lists are read as the same.
-/

namespace FunctionalOptions

namespace Descriptor

open Json (Failure)

/-- The tree is an array or an object that was closed. -/
inductive Container : Json → Prop where
  | object (members : List (Option String × Json)) : Container (.object members none)
  | array (items : List Json) : Container (.array items none)

/-- What is read of a tree in a role is read of the other one, too. -/
def Role.Reads : Role → Json → Json → Prop
  | .document, tree, reworded => ∀ depth document,
    readDocumentTree depth tree = .ok document → readDocumentTree depth reworded = .ok document
  | .package, tree, reworded =>
    (∀ depth package,
      readPackageTree depth tree = .ok package → readPackageTree depth reworded = .ok package) ∧
    ∀ package, Package.ofTree? tree = some package → Package.ofTree? reworded = some package
  | .record, tree, reworded => ∀ depth record,
    readRecordTree depth tree = .ok record → readRecordTree depth reworded = .ok record
  | .field, tree, reworded => ∀ depth field,
    readFieldTree depth tree = .ok field → readFieldTree depth reworded = .ok field
  | .param, tree, reworded => ∀ depth param,
    Param.ofTree? (Shape.ofTree? depth) tree = some param →
      Param.ofTree? (Shape.ofTree? depth) reworded = some param
  | .shape, tree, reworded =>
    (∀ depth, checkTagged depth tree = .ok () → checkTagged depth reworded = .ok ()) ∧
    ∀ depth shape, Shape.ofTree? depth tree = some shape → Shape.ofTree? depth reworded = some shape
  | .list role, tree, reworded => ∀ items, tree = .array items none →
    ∃ others, reworded = .array others none ∧ List.Forall₂ (fun item reworded =>
      item = reworded ∨ Container item ∧ role.Reads item reworded) items others
  | .other, tree, reworded =>
    (∀ dir, direction? tree = some dir → direction? reworded = some dir) ∧
    (tree = .object [] none → reworded = .object [] none)

/-- A tree that can be told from the other one neither by reading it in the role nor by
    checking its text. -/
structure Kept (role : Role) (tree reworded : Json) : Prop where
  container : Container tree
  container_reworded : Container reworded
  check : ∀ depth, check depth tree = .ok () → Descriptor.check depth reworded = .ok ()
  reads : role.Reads tree reworded

/-! ## Values -/

section Values

theorem Container.skip_eq {tree : Json} (h : Container tree) : skip tree = .ok () := by
  cases h <;> rfl

/-- A reader that reads no container. -/
def Scalar {α : Type} (read? : Json → Option α) : Prop :=
  ∀ tree, Container tree → read? tree = none

theorem scalar_text? : Scalar text? := by
  rintro _ ⟨⟩ <;> rfl

theorem scalar_bool? : Scalar bool? := by
  rintro _ ⟨⟩ <;> rfl

theorem scalar_length? : Scalar length? := by
  rintro _ ⟨⟩ <;> rfl

theorem scalar_kind? : Scalar kind? := by
  rintro _ ⟨⟩ <;> rfl

/-- The reader reads of the other tree what it reads of the one. -/
def Keeps {α : Type} (read? : Json → Option α) (tree reworded : Json) : Prop :=
  ∀ value, read? tree = some value → read? reworded = some value

theorem Scalar.keeps {α : Type} {read? : Json → Option α} (h : Scalar read?) {tree reworded : Json}
    (htree : Container tree) : Keeps read? tree reworded := by
  intro value hvalue
  rw [h tree htree] at hvalue
  cases hvalue

theorem Keeps.optional {α : Type} {read? : Json → Option α} {tree reworded : Json}
    (h : Keeps read? tree reworded) (htree : Container tree) (hreworded : Container reworded) :
    Keeps (optional? read?) tree reworded := by
  intro value hvalue
  -- An object or an array is not null, so it is not taken for something absent.
  have htree : optional? read? tree = (read? tree).map some := by
    cases htree <;> rfl
  have hreworded : optional? read? reworded = (read? reworded).map some := by
    cases hreworded <;> rfl
  rw [htree, Option.map_eq_some_iff] at hvalue
  rcases hvalue with ⟨inner, hinner, rfl⟩
  rw [hreworded, h inner hinner, Option.map_some]

/-- Items that are kept are read as the same. -/
theorem mapM_eq_some_of_forall₂ {α : Type} {read? : Json → Option α} {items others : List Json}
    {values : List α}
    (h : List.Forall₂ (fun item other => item = other ∨ Keeps read? item other) items others)
    (hvalues : items.mapM read? = some values) : others.mapM read? = some values := by
  induction h generalizing values with
  | nil => exact hvalues
  | cons hitem _ ih =>
      simp only [List.mapM_cons, Option.bind_eq_bind, Option.bind_eq_some_iff] at hvalues ⊢
      rcases hvalues with ⟨value, hvalue, others, hothers, h⟩
      refine ⟨value, ?_, others, ih hothers, h⟩
      -- The item is as it was, or the reader cannot tell.
      rcases hitem with rfl | hitem
      · exact hvalue
      · exact hitem value hvalue

/-- The items of a list are kept by a reader that keeps each of them. -/
theorem Kept.keeps_list {α : Type} {read? : Json → Option α} {role : Role}
    {tree reworded : Json} (h : Kept (.list role) tree reworded)
    (hitem : ∀ item other, Container item → role.Reads item other → Keeps read? item other) :
    Keeps (list? read?) tree reworded := by
  intro values hvalues
  cases h.container with
  | object members => cases hvalues
  | array items =>
      rcases h.reads items rfl with ⟨others, rfl, hitems⟩
      refine mapM_eq_some_of_forall₂ (hitems.imp fun item other => ?_) hvalues
      exact Or.imp_right fun hkept => hitem item other hkept.1 hkept.2

theorem Kept.readList {α : Type} {read : Nat → Json → Except Failure α} {role : Role}
    {tree reworded : Json} (h : Kept (.list role) tree reworded)
    (hitem : ∀ item other, role.Reads item other →
      ∀ depth value, read depth item = .ok value → read depth other = .ok value)
    {depth : Nat} {values : List α} (hread : readList depth read tree = .ok values) :
    Descriptor.readList depth read reworded = .ok values := by
  rw [readList_eq_ok_iff] at hread ⊢
  rcases hread with ⟨inside, items, hdepth, htree, hvalues⟩
  rcases h.reads items htree with ⟨others, hreworded, hitems⟩
  refine ⟨inside, others, hdepth, hreworded, ?_⟩
  -- The induction is on the items alone; where they come from is said of all of them.
  clear hdepth htree hreworded
  induction hitems generalizing values with
  | nil => exact hvalues
  | cons hsame _ ih =>
      cases hvalues with
      | cons hvalue hvalues =>
          refine .cons ?_ (ih hvalues)
          rcases hsame with rfl | ⟨-, hreads⟩
          · exact hvalue
          · exact hitem _ _ hreads inside _ hvalue

end Values

end Descriptor

end FunctionalOptions
