import FunctionalOptions.Files.FileTree

/-!
# Outcomes of Computations

What every outcome of a computation has in common, whatever kind of computation
it is. A generated file is written by a program over any file system, so a
statement about the outcome of writing can neither look at a final state nor
assume that there is one. It says instead that the computation could have been
given a narrower type, that of outcomes with the property.

For computations on a file tree this comes down to a statement about the value
that is returned from each tree. What they do to the tree is said apart from it,
as a relation between the tree before and the tree after.

## Main definitions

* `Always`: Every outcome of a computation has a property.
* `OnTree.Looks`: A computation changes nothing in the tree.
* `OnTree.Moves`: A computation changes the tree in a certain way only.

## Theorems

* `Always.pure`, `Always.bind`: A sequence has the property when its second
  step does on every outcome of the first.
* `Always.onTree`: The outcome on a file tree has the property.
* `OnTree.Looks.bind`: A sequence of steps that change nothing changes nothing.
* `OnTree.Moves.bind`: A sequence changes the tree as its steps do.
-/

namespace FunctionalOptions

variable {m : Type → Type} {α β : Type}

/-- Every outcome of the computation has the property: the computation is one
    of outcomes with the property that has forgotten about it. -/
def Always [Functor m] (property : α → Prop) (x : m α) : Prop :=
  ∃ y : m {a : α // property a}, Subtype.val <$> y = x

namespace Always

/-- A value that has the property is such an outcome. -/
theorem pure [Monad m] [LawfulMonad m] {property : α → Prop} {a : α} (h : property a) :
    Always property (Pure.pure a : m α) :=
  ⟨Pure.pure ⟨a, h⟩, map_pure _ _⟩

/-- A property that follows from one that all outcomes have is one of theirs. -/
theorem imp [Monad m] [LawfulMonad m] {first property : α → Prop} {x : m α}
    (hx : Always first x) (h : ∀ a, first a → property a) : Always property x := by
  rcases hx with ⟨y, rfl⟩
  refine ⟨(fun a => ⟨a.1, h a.1 a.2⟩) <$> y, ?_⟩
  rw [← comp_map]
  rfl

/-- There is nothing to show about outcomes of which nothing is said. -/
theorem anything [Monad m] [LawfulMonad m] (x : m α) : Always (fun _ => True) x := by
  refine ⟨(fun a => ⟨a, trivial⟩) <$> x, ?_⟩
  rw [← comp_map]
  exact id_map x

/-- A sequence has a property when its second step has it on every outcome of
    the first one. -/
theorem bind [Monad m] [LawfulMonad m] {first : α → Prop} {property : β → Prop} {x : m α}
    {f : α → m β} (hx : Always first x) (hf : ∀ a, first a → Always property (f a)) :
    Always property (x >>= f) := by
  rcases hx with ⟨y, rfl⟩
  refine ⟨y >>= fun a => (hf a.1 a.2).choose, ?_⟩
  rw [map_bind, bind_map_left]
  exact bind_congr fun a => (hf a.1 a.2).choose_spec

/-- The outcome on a file tree has the property. -/
theorem onTree {property : α → Prop} {x : OnTree α} (h : Always property x) (tree : FileTree) :
    property (x tree).1 := by
  rcases h with ⟨y, rfl⟩
  exact (y tree).1.2

end Always

namespace OnTree

/-- The second step of a sequence starts from the tree that the first one leaves. -/
theorem bind_run (x : OnTree α) (f : α → OnTree β) (tree : FileTree) :
    (x >>= f) tree = f (x tree).1 (x tree).2 := rfl

/-- A change that gives nothing but a tree gives it to the next step. -/
theorem update_run (change : FileTree → Except FileError FileTree) (tree : FileTree) :
    update (fun tree => (change tree).map ((), ·)) tree =
      match change tree with
      | .ok tree' => (.ok (), tree')
      | .error error => (.error error, tree) := by
  rw [update]
  cases change tree with
  | ok tree' => rfl
  | error error => rfl

/-- The computation looks at the file tree and changes nothing in it. -/
def Looks (x : OnTree α) : Prop :=
  ∀ tree, (x tree).2 = tree

namespace Looks

theorem pure (a : α) : Looks (Pure.pure a) :=
  fun _ => rfl

/-- A sequence of steps that change nothing changes nothing. -/
theorem bind {x : OnTree α} {f : α → OnTree β} (hx : Looks x) (hf : ∀ a, Looks (f a)) :
    Looks (x >>= f) :=
  fun tree => (hf (x tree).1 (x tree).2).trans (hx tree)

end Looks

/-- The computation leads from every tree to one that the relation allows. -/
def Moves (allowed : FileTree → FileTree → Prop) (x : OnTree α) : Prop :=
  ∀ tree, allowed tree (x tree).2

namespace Moves

variable {allowed : FileTree → FileTree → Prop}

/-- A computation that changes nothing does what leaving the tree alone does. -/
theorem of_looks (hrefl : ∀ tree, allowed tree tree) {x : OnTree α} (h : Looks x) :
    Moves allowed x := by
  intro tree
  rw [h tree]
  exact hrefl tree

/-- A sequence changes the tree as its steps do, one after the other. -/
theorem bind (htrans : ∀ first second third, allowed first second → allowed second third →
      allowed first third) {x : OnTree α} {f : α → OnTree β} (hx : Moves allowed x)
    (hf : ∀ a, Moves allowed (f a)) : Moves allowed (x >>= f) :=
  fun tree => htrans _ _ _ (hx tree) (hf (x tree).1 (x tree).2)

end Moves

end OnTree

end FunctionalOptions
