import FunctionalOptions.Go.TypeText

/-!
# Parts of Types

What is said about a type at every depth. A rule of the language, such as where
a variadic mark may stand, concerns one node of a type; the claim that a whole
type keeps the rule concerns every part of it, however deep inside parameters,
results, map keys and channels.

`Within` says what the parts are, and `Everywhere` lifts a rule about one node
to all of them. The lifted rule is a statement about parts and not a recursion
of its own, so it can be read without knowing how any traversal goes. The
lemmas below turn it into one equivalence for each constructor, which is the
form that inductions use.

## Main definitions

* `TypeExpr.Within`: A type is a part of another, or the other itself.
* `TypeExpr.Everywhere`: A rule holds of every part of a type.

## Theorems

* `TypeExpr.inductOn`: Induction with a hypothesis for every parameter and
  result.
* `TypeExpr.Within.trans`: A part of a part is a part.
* `TypeExpr.everywhere_pointer` and its siblings: A rule holds everywhere in a
  type when it holds of the type and everywhere in what it is built from.
* `TypeExpr.mem_packages_iff`: The packages of a type are those of the names
  that are part of it.
-/

namespace FunctionalOptions

namespace Go

namespace TypeExpr

/-- Induction on a type. A function type comes with a hypothesis for each of
    its parameters and results, which the recursor states about lists. -/
@[elab_as_elim]
theorem inductOn {motive : TypeExpr → Prop} (n : TypeExpr)
    (predeclared : ∀ name, motive (.predeclared name))
    (named : ∀ package name, motive (.named package name))
    (pointer : ∀ elem, motive elem → motive (.pointer elem))
    (slice : ∀ elem, motive elem → motive (.slice elem))
    (array : ∀ len elem, motive elem → motive (.array len elem))
    (channel : ∀ dir elem, motive elem → motive (.channel dir elem))
    (map : ∀ key value, motive key → motive value → motive (.map key value))
    (func : ∀ inputs outputs, (∀ p ∈ inputs, motive p.type) → (∀ p ∈ outputs, motive p.type) →
      motive (.func inputs outputs)) : motive n := by
  refine @TypeExpr.rec motive (fun params => ∀ p ∈ params, motive p.type)
    (fun p => motive p.type) predeclared named pointer slice array channel map func
    ?_ ?_ ?_ n
  · intro p hp
    exact absurd hp List.not_mem_nil
  · intro head tail hhead htail p hp
    rcases List.mem_cons.mp hp with rfl | hp
    · exact hhead
    · exact htail p hp
  · intro _ _ _ htype
    exact htype

/-- A type is a part of another, or is the other. -/
inductive Within (t : TypeExpr) : TypeExpr → Prop where
  | self : Within t t
  | pointer {elem : TypeExpr} : Within t elem → Within t (.pointer elem)
  | slice {elem : TypeExpr} : Within t elem → Within t (.slice elem)
  | array {len : UInt64} {elem : TypeExpr} : Within t elem → Within t (.array len elem)
  | channel {dir : Direction} {elem : TypeExpr} : Within t elem → Within t (.channel dir elem)
  | key {key value : TypeExpr} : Within t key → Within t (.map key value)
  | value {key value : TypeExpr} : Within t value → Within t (.map key value)
  | input {inputs outputs : List (Param TypeExpr)} {p : Param TypeExpr} :
    p ∈ inputs → Within t p.type → Within t (.func inputs outputs)
  | output {inputs outputs : List (Param TypeExpr)} {p : Param TypeExpr} :
    p ∈ outputs → Within t p.type → Within t (.func inputs outputs)

/-- A part of a part is a part. -/
theorem Within.trans {a b c : TypeExpr} (hab : Within a b) (hbc : Within b c) : Within a c := by
  induction hbc with
  | self => exact hab
  | pointer _ ih => exact .pointer ih
  | slice _ ih => exact .slice ih
  | array _ ih => exact .array ih
  | channel _ ih => exact .channel ih
  | key _ ih => exact .key ih
  | value _ ih => exact .value ih
  | input hp _ ih => exact .input hp ih
  | output hp _ ih => exact .output hp ih

/-- A rule holds of a type and of all its parts. -/
def Everywhere (rule : TypeExpr → Prop) (n : TypeExpr) : Prop :=
  ∀ t, Within t n → rule t

variable {rule : TypeExpr → Prop}

/-- What holds everywhere in a type holds of the type. -/
theorem Everywhere.here {n : TypeExpr} (h : n.Everywhere rule) : rule n :=
  h n .self

/-- What holds everywhere in a type holds everywhere in its parts. -/
theorem Everywhere.part {n t : TypeExpr} (h : n.Everywhere rule) (ht : Within t n) :
    t.Everywhere rule :=
  fun s hs => h s (hs.trans ht)

theorem everywhere_predeclared {name : String} :
    (predeclared name).Everywhere rule ↔ rule (.predeclared name) := by
  refine ⟨Everywhere.here, fun h t ht => ?_⟩
  cases ht
  exact h

theorem everywhere_named {package : Option Package} {name : String} :
    (named package name).Everywhere rule ↔ rule (.named package name) := by
  refine ⟨Everywhere.here, fun h t ht => ?_⟩
  cases ht
  exact h

theorem everywhere_pointer {elem : TypeExpr} :
    (pointer elem).Everywhere rule ↔ rule (.pointer elem) ∧ elem.Everywhere rule := by
  refine ⟨fun h => ⟨h.here, h.part (.pointer .self)⟩, fun ⟨hhere, helem⟩ t ht => ?_⟩
  cases ht with
  | self => exact hhere
  | pointer ht => exact helem t ht

theorem everywhere_slice {elem : TypeExpr} :
    (slice elem).Everywhere rule ↔ rule (.slice elem) ∧ elem.Everywhere rule := by
  refine ⟨fun h => ⟨h.here, h.part (.slice .self)⟩, fun ⟨hhere, helem⟩ t ht => ?_⟩
  cases ht with
  | self => exact hhere
  | slice ht => exact helem t ht

theorem everywhere_array {len : UInt64} {elem : TypeExpr} :
    (array len elem).Everywhere rule ↔ rule (.array len elem) ∧ elem.Everywhere rule := by
  refine ⟨fun h => ⟨h.here, h.part (.array .self)⟩, fun ⟨hhere, helem⟩ t ht => ?_⟩
  cases ht with
  | self => exact hhere
  | array ht => exact helem t ht

theorem everywhere_channel {dir : Direction} {elem : TypeExpr} :
    (channel dir elem).Everywhere rule ↔ rule (.channel dir elem) ∧ elem.Everywhere rule := by
  refine ⟨fun h => ⟨h.here, h.part (.channel .self)⟩, fun ⟨hhere, helem⟩ t ht => ?_⟩
  cases ht with
  | self => exact hhere
  | channel ht => exact helem t ht

theorem everywhere_map {key value : TypeExpr} :
    (map key value).Everywhere rule ↔
      rule (.map key value) ∧ key.Everywhere rule ∧ value.Everywhere rule := by
  refine ⟨fun h => ⟨h.here, h.part (.key .self), h.part (.value .self)⟩,
    fun ⟨hhere, hkey, hvalue⟩ t ht => ?_⟩
  cases ht with
  | self => exact hhere
  | key ht => exact hkey t ht
  | value ht => exact hvalue t ht

theorem everywhere_func {inputs outputs : List (Param TypeExpr)} :
    (func inputs outputs).Everywhere rule ↔ rule (.func inputs outputs) ∧
      (∀ p ∈ inputs, p.type.Everywhere rule) ∧ (∀ p ∈ outputs, p.type.Everywhere rule) := by
  refine ⟨fun h => ⟨h.here, fun p hp => h.part (.input hp .self),
    fun p hp => h.part (.output hp .self)⟩, fun ⟨hhere, hin, hout⟩ t ht => ?_⟩
  cases ht with
  | self => exact hhere
  | input hp ht => exact hin _ hp t ht
  | output hp ht => exact hout _ hp t ht

/-- The packages of parameters are those of their types. -/
theorem paramsPackages_eq (params : List (Param TypeExpr)) :
    paramsPackages params = params.flatMap (·.type.packages) := by
  induction params with
  | nil => rfl
  | cons p ps ih => rw [paramsPackages, ih, List.flatMap_cons, paramPackages]

/-- The packages of a type are those of the names that are part of it. -/
theorem mem_packages_iff (n : TypeExpr) (package : Package) :
    package ∈ n.packages ↔ ∃ name, Within (.named (some package) name) n := by
  constructor
  · -- A package is followed down to the name it comes from.
    induction n using inductOn with
    | predeclared name =>
        intro h
        exact absurd h List.not_mem_nil
    | named other name =>
        intro h
        rw [packages, Option.mem_toList] at h
        exact ⟨name, h ▸ .self⟩
    | pointer elem ih => exact fun h => (ih h).imp fun _ => .pointer
    | slice elem ih => exact fun h => (ih h).imp fun _ => .slice
    | array len elem ih => exact fun h => (ih h).imp fun _ => .array
    | channel dir elem ih => exact fun h => (ih h).imp fun _ => .channel
    | map key value ihKey ihValue =>
        intro h
        rcases List.mem_append.mp h with h | h
        · exact (ihKey h).imp fun _ => .key
        · exact (ihValue h).imp fun _ => .value
    | func inputs outputs ihIn ihOut =>
        intro h
        simp only [packages, paramsPackages_eq, List.mem_append, List.mem_flatMap] at h
        rcases h with ⟨p, hp, h⟩ | ⟨p, hp, h⟩
        · exact (ihIn p hp h).imp fun _ => .input hp
        · exact (ihOut p hp h).imp fun _ => .output hp
  · -- The other way, it is collected on the path from the name up to the type.
    rintro ⟨name, h⟩
    induction h with
    | self => exact Option.mem_toList.mpr rfl
    | pointer _ ih => exact ih
    | slice _ ih => exact ih
    | array _ ih => exact ih
    | channel _ ih => exact ih
    | key _ ih => exact List.mem_append_left _ ih
    | value _ ih => exact List.mem_append_right _ ih
    | input hp _ ih =>
        simp only [packages, paramsPackages_eq, List.mem_append, List.mem_flatMap]
        exact Or.inl ⟨_, hp, ih⟩
    | output hp _ ih =>
        simp only [packages, paramsPackages_eq, List.mem_append, List.mem_flatMap]
        exact Or.inr ⟨_, hp, ih⟩

end TypeExpr

end Go

end FunctionalOptions
