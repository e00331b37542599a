import FunctionalOptions.Descriptor.Xml.Read
import Mathlib.Data.List.Forall2

/-!
# The Grammar of Documents

Which trees of elements are documents. Each reader looks at one element or one
list of elements and trusts the others with the rest, so no single place in the
readers says it. The relations below do: how an element has to be named, what it
has to hold and what it then stands for.

The members of an interface or struct are the one point at which more is
accepted than there should be. A member is a name and nothing else, and a writer
of the format has no use for an element inside it; yet elements inside a member
are taken for further members, and their names come behind the name of the
outer one. The grammar therefore has the list of members for a parameter. With
members wherever they stand it is what is accepted, and with members that have
nothing inside it is what the format means. The two agree on exactly the
elements in which no member has an element inside.

## Main definitions

* `Fits`: An element stands for a shape, given what stands for members.
* `FitsField`, `FitsRecord`, `FitsDocument`: An element stands for a field, a
  record type and a document.
* `AllMembers`, `DirectMembers`: The members that are read, and those that are
  meant.
* `shallow`: No member has an element inside.

## Theorems

* `Fits.shallow_eq_true`, `Fits.direct`: An element stands for a shape in the
  intended way if it is shallow, and only then.
* `FitsDocument.direct_iff`: So it is for documents.
-/

namespace FunctionalOptions

namespace Xml

/-- The element has the tag and the elements inside it, and came to its end. -/
inductive Holds : Element → Tag → List Element → Prop where
  | empty (tag : Tag) : Holds (.empty tag) tag []
  | node (tag : Tag) (inside : List Element) : Holds (.node tag inside .closed) tag inside

/-- The element has the name and holds one element. -/
inductive Wraps (name : String) : Element → Tag → Element → Prop where
  | intro {tag : Tag} (inner : Element) : tag.name = name →
    Wraps name (.node tag [inner] .closed) tag inner

/-- Induction on an element with a hypothesis for each element inside it. -/
@[elab_as_elim]
theorem Element.inductOn {motive : Element → Prop} (e : Element)
    (empty : ∀ tag, motive (.empty tag))
    (node : ∀ tag children ending, (∀ c ∈ children, motive c) →
      motive (.node tag children ending)) : motive e := by
  -- The recursor speaks of lists as well: each element of them is as claimed.
  refine @Element.rec motive (fun children => ∀ c ∈ children, motive c) empty node ?_ ?_ e
  · intro c hc
    exact absurd hc List.not_mem_nil
  · intro c children hc hchildren
    exact List.forall_mem_cons.mpr ⟨hc, hchildren⟩

/-- The elements inside an element. -/
def Element.inside : Element → List Element
  | .empty _ => []
  | .node _ children _ => children

theorem Holds.inside_eq {e : Element} {tag : Tag} {inside : List Element}
    (h : Holds e tag inside) : e.inside = inside := by
  cases h <;> rfl

theorem Wraps.mem_inside {name : String} {e type : Element} {tag : Tag}
    (h : Wraps name e tag type) : type ∈ e.inside := by
  cases h
  exact List.mem_cons_self

end Xml

namespace Descriptor

open Xml (Element Holds Tag Wraps)

/-! ## The grammar -/

/-- A parameter or result of a function with its element and the element of its
    type. -/
structure Slot where
  isResult : Bool
  param : Param Shape
  element : Element
  type : Element

namespace Slot

/-- The element of a slot is named for what it is, and says the name of the
    parameter or result if there is one. -/
def Placed (slot : Slot) : Prop :=
  ∃ tag, Wraps (if slot.isResult then "result" else "param") slot.element tag slot.type ∧
    optional tag "name" = .ok slot.param.name

/-- The parameters among slots. -/
def params (slots : List Slot) : List (Param Shape) :=
  (slots.filter (!·.isResult)).map Slot.param

/-- The results among slots. -/
def results (slots : List Slot) : List (Param Shape) :=
  (slots.filter (·.isResult)).map Slot.param

end Slot

section Grammar

variable (members : String → List Element → List String → Prop)

/-- The element stands for the shape, given which elements stand for the members
    of an interface or struct. Nothing is said of what is inside the element of
    a shape without contents. -/
inductive Fits : Element → Shape → Prop where
  | basic {e : Element} {tag : Tag} {inside : List Element} {name : String} :
    Holds e tag inside → tag.name = "basic" → optional tag "name" = .ok (some name) →
    Fits e (.basic name)
  | named {e : Element} {tag : Tag} {inside : List Element} {shape : Shape} :
    Holds e tag inside → tag.name = "named" → readNamed tag = .ok shape → Fits e shape
  | typeParam {e : Element} {tag : Tag} {inside : List Element} {name : String} :
    Holds e tag inside → tag.name = "typeParam" → optional tag "name" = .ok (some name) →
    Fits e (.typeParam name)
  | unsafePointer {e : Element} {tag : Tag} {inside : List Element} :
    Holds e tag inside → tag.name = "unsafePointer" → Fits e .unsafePointer
  | pointer {e type : Element} {tag : Tag} {elem : Shape} :
    Wraps "pointer" e tag type → Fits type elem → Fits e (.pointer elem)
  | slice {e type : Element} {tag : Tag} {elem : Shape} :
    Wraps "slice" e tag type → Fits type elem → Fits e (.slice elem)
  | array {e type : Element} {tag : Tag} {len : UInt64} {elem : Shape} :
    Wraps "array" e tag type → readLength tag = .ok len → Fits type elem →
    Fits e (.array len elem)
  | chan {e type : Element} {tag : Tag} {dir : Go.Direction} {elem : Shape} :
    Wraps "chan" e tag type → readDirection tag = .ok dir → Fits type elem →
    Fits e (.chan dir elem)
  | map {e keyElement valueElement keyType valueType : Element} {tag keyTag valueTag : Tag}
      {inside : List Element} {key value : Shape} :
    Holds e tag inside → tag.name = "map" → inside.Perm [keyElement, valueElement] →
    Wraps "key" keyElement keyTag keyType → Wraps "value" valueElement valueTag valueType →
    Fits keyType key → Fits valueType value → Fits e (.map key value)
  | func {e : Element} {tag : Tag} {slots : List Slot} {variadic : Bool} :
    Holds e tag (slots.map Slot.element) → tag.name = "func" → readVariadic tag = .ok variadic →
    (∀ slot ∈ slots, slot.Placed) → (∀ slot ∈ slots, Fits slot.type slot.param.type) →
    Fits e (.func (Slot.params slots) (Slot.results slots) variadic)
  | interface {e : Element} {tag : Tag} {inside : List Element} {methods : List String} :
    Holds e tag inside → tag.name = "interface" → members "method" inside methods →
    Fits e (.interface methods)
  | struct {e : Element} {tag : Tag} {inside : List Element} {fields : List String} :
    Holds e tag inside → tag.name = "struct" → members "member" inside fields →
    Fits e (.struct fields)

/-- The element stands for the field. -/
def FitsField (e : Element) (field : Field) : Prop :=
  ∃ tag type, Wraps "field" e tag type ∧ optional tag "name" = .ok (some field.name) ∧
    optional tag "tag" = .ok field.tag ∧ Fits members type field.type

/-- The element stands for the record type. -/
def FitsRecord (e : Element) (record : Record) : Prop :=
  ∃ tag inside, Holds e tag inside ∧ tag.name = "record" ∧
    optional tag "name" = .ok (some record.name) ∧
      List.Forall₂ (FitsField members) inside record.fields

/-- The element stands for the document, whose record types have different
    names. -/
def FitsDocument (e : Element) (document : Document) : Prop :=
  ∃ tag inside, Holds e tag inside ∧ tag.name = "package" ∧
    optional tag "path" = .ok (some document.package.path) ∧
      optional tag "name" = .ok document.package.name ∧
        List.Forall₂ (FitsRecord members) inside document.records ∧
          (document.records.map Record.name).Nodup

end Grammar

/-- The elements are members with nothing inside, with the names in their
    order. -/
def DirectMembers (member : String) : List Element → List String → Prop :=
  List.Forall₂ fun e name =>
    ∃ tag, Holds e tag [] ∧ tag.name = member ∧ optional tag "name" = .ok (some name)

/-- The elements are members that hold nothing but members, with the names in
    the order of the text. -/
inductive AllMembers (member : String) : List Element → List String → Prop where
  | nil : AllMembers member [] []
  | cons {e : Element} {tag : Tag} {inside rest : List Element} {name : String}
      {inner others : List String} :
    Holds e tag inside → tag.name = member → optional tag "name" = .ok (some name) →
    AllMembers member inside inner → AllMembers member rest others →
    AllMembers member (e :: rest) (name :: (inner ++ others))

namespace AllMembers

variable {member : String} {first rest : List Element} {names others : List String}

/-- Members one after the other are members. -/
theorem append (h : AllMembers member first names) (hrest : AllMembers member rest others) :
    AllMembers member (first ++ rest) (names ++ others) := by
  induction h with
  | nil => exact hrest
  | cons hholds hmember hname hinside _ _ ih =>
      rw [List.cons_append, List.cons_append, List.append_assoc]
      exact .cons hholds hmember hname hinside ih

/-- A member stands for its name and those of the members inside. -/
theorem single {e : Element} {tag : Tag} {inside : List Element} {name : String}
    (hholds : Holds e tag inside) (hmember : tag.name = member)
    (hname : optional tag "name" = .ok (some name)) (hinside : AllMembers member inside names) :
    AllMembers member [e] (name :: names) := by
  rw [← List.append_nil names]
  exact .cons hholds hmember hname hinside .nil

/-- Members with nothing inside are all the members there are. -/
theorem direct (h : AllMembers member first names) (hempty : ∀ e ∈ first, e.inside = []) :
    DirectMembers member first names := by
  induction h with
  | nil => exact .nil
  | cons hholds hmember hname hinside _ _ ih =>
      rw [List.forall_mem_cons, hholds.inside_eq] at hempty
      rcases hempty with ⟨rfl, hempty⟩
      -- Nothing inside means no names between this one and the next.
      cases hinside
      exact .cons ⟨_, hholds, hmember, hname⟩ (ih hempty)

end AllMembers

theorem DirectMembers.inside_eq_nil {member : String} {elements : List Element}
    {names : List String} (h : DirectMembers member elements names) :
    ∀ e ∈ elements, e.inside = [] := by
  induction h with
  | nil => exact List.forall_mem_nil _
  | cons hmember _ ih =>
      rcases hmember with ⟨_, hholds, _⟩
      exact List.forall_mem_cons.mpr ⟨hholds.inside_eq, ih⟩

/-! ## Members inside members -/

/-- The names of elements whose contents mean nothing. -/
def skipped : List String :=
  ["basic", "named", "typeParam", "unsafePointer"]

mutual

/-- No member of an interface or struct has an element inside. What is inside an
    element whose contents mean nothing does not count. -/
def shallow : Element → Bool
  | .empty _ => true
  | .node tag children _ =>
    if tag.name ∈ skipped then true
    else if tag.name = "interface" ∨ tag.name = "struct" then children.all (·.inside.isEmpty)
    else shallowAll children

/-- The same for elements next to each other. -/
def shallowAll : List Element → Bool
  | [] => true
  | e :: rest => shallow e && shallowAll rest

end

theorem shallowAll_iff {elements : List Element} :
    shallowAll elements = true ↔ ∀ e ∈ elements, shallow e = true := by
  induction elements with
  | nil => simp [shallowAll]
  | cons e rest ih => simp [shallowAll, ih]

/-- Contents that mean nothing are as good as none. -/
theorem shallow_of_skipped {e : Element} {tag : Tag} {inside : List Element}
    (h : Holds e tag inside) (hname : tag.name ∈ skipped) : shallow e = true := by
  cases h with
  | empty => rw [shallow]
  | node => rw [shallow, if_pos hname]

/-- The elements with members are where it is decided. -/
theorem shallow_members_iff {e : Element} {tag : Tag} {inside : List Element}
    (h : Holds e tag inside) (hname : tag.name = "interface" ∨ tag.name = "struct") :
    shallow e = true ↔ ∀ c ∈ inside, c.inside = [] := by
  cases h with
  | empty => simp [shallow]
  | node =>
      have hskipped : tag.name ∉ skipped := by
        rcases hname with hname | hname <;> rw [hname] <;> decide
      rw [shallow, if_neg hskipped, if_pos hname]
      simp

/-- Elsewhere it depends on the elements inside. -/
theorem shallow_iff_of_holds {e : Element} {tag : Tag} {inside : List Element} {name : String}
    (h : Holds e tag inside) (htag : tag.name = name)
    (hname : name ∉ skipped ∧ ¬(name = "interface" ∨ name = "struct")) :
    shallow e = true ↔ ∀ c ∈ inside, shallow c = true := by
  subst htag
  cases h with
  | empty => simp [shallow]
  | node => rw [shallow, if_neg hname.1, if_neg hname.2, shallowAll_iff]

theorem shallow_iff_of_wraps {e type : Element} {tag : Tag} {name : String}
    (h : Wraps name e tag type)
    (hname : name ∉ skipped ∧ ¬(name = "interface" ∨ name = "struct")) :
    shallow e = true ↔ shallow type = true := by
  cases h with | intro _ htag =>
  rw [shallow_iff_of_holds (.node tag [type]) htag hname, List.forall_mem_singleton]

theorem Slot.Placed.shallow_iff {slot : Slot} (h : slot.Placed) :
    shallow slot.element = true ↔ shallow slot.type = true := by
  rcases h with ⟨tag, hwraps, _⟩
  cases hresult : slot.isResult <;> rw [hresult] at hwraps <;>
    exact shallow_iff_of_wraps hwraps (by decide)

/-- An element that stands for a shape in the intended way is shallow. -/
theorem Fits.shallow_eq_true {e : Element} {shape : Shape} (h : Fits DirectMembers e shape) :
    shallow e = true := by
  -- Only interfaces and structs have members, and theirs have nothing inside.
  induction h with
  | basic hholds hname _ => exact shallow_of_skipped hholds (by rw [hname]; decide)
  | named hholds hname _ => exact shallow_of_skipped hholds (by rw [hname]; decide)
  | typeParam hholds hname _ => exact shallow_of_skipped hholds (by rw [hname]; decide)
  | unsafePointer hholds hname => exact shallow_of_skipped hholds (by rw [hname]; decide)
  | pointer hwraps _ ih => exact (shallow_iff_of_wraps hwraps (by decide)).mpr ih
  | slice hwraps _ ih => exact (shallow_iff_of_wraps hwraps (by decide)).mpr ih
  | array hwraps _ _ ih => exact (shallow_iff_of_wraps hwraps (by decide)).mpr ih
  | chan hwraps _ _ ih => exact (shallow_iff_of_wraps hwraps (by decide)).mpr ih
  | map hholds hname hperm hkey hvalue _ _ ihKey ihValue =>
      simp only [shallow_iff_of_holds hholds hname (by decide), hperm.mem_iff,
        List.forall_mem_cons]
      exact ⟨(shallow_iff_of_wraps hkey (by decide)).mpr ihKey,
        (shallow_iff_of_wraps hvalue (by decide)).mpr ihValue, List.forall_mem_nil _⟩
  | func hholds hname _ hplaced _ ih =>
      rw [shallow_iff_of_holds hholds hname (by decide), List.forall_mem_map]
      exact fun slot hslot => (hplaced slot hslot).shallow_iff.mpr (ih slot hslot)
  | interface hholds hname hmembers =>
      exact (shallow_members_iff hholds (.inl hname)).mpr hmembers.inside_eq_nil
  | struct hholds hname hmembers =>
      exact (shallow_members_iff hholds (.inr hname)).mpr hmembers.inside_eq_nil

/-- An element that stands for a shape does so in the intended way if it is
    shallow. -/
theorem Fits.direct {e : Element} {shape : Shape} (h : Fits AllMembers e shape)
    (hshallow : shallow e = true) : Fits DirectMembers e shape := by
  -- All that has to change is what is said of members.
  induction h with
  | basic hholds hname hvalue => exact .basic hholds hname hvalue
  | named hholds hname hvalue => exact .named hholds hname hvalue
  | typeParam hholds hname hvalue => exact .typeParam hholds hname hvalue
  | unsafePointer hholds hname => exact .unsafePointer hholds hname
  | pointer hwraps _ ih =>
      exact .pointer hwraps (ih ((shallow_iff_of_wraps hwraps (by decide)).mp hshallow))
  | slice hwraps _ ih =>
      exact .slice hwraps (ih ((shallow_iff_of_wraps hwraps (by decide)).mp hshallow))
  | array hwraps hlen _ ih =>
      exact .array hwraps hlen (ih ((shallow_iff_of_wraps hwraps (by decide)).mp hshallow))
  | chan hwraps hdir _ ih =>
      exact .chan hwraps hdir (ih ((shallow_iff_of_wraps hwraps (by decide)).mp hshallow))
  | map hholds hname hperm hkey hvalue _ _ ihKey ihValue =>
      simp only [shallow_iff_of_holds hholds hname (by decide), hperm.mem_iff,
        List.forall_mem_cons] at hshallow
      rcases hshallow with ⟨hkeyShallow, hvalueShallow, _⟩
      exact .map hholds hname hperm hkey hvalue
        (ihKey ((shallow_iff_of_wraps hkey (by decide)).mp hkeyShallow))
        (ihValue ((shallow_iff_of_wraps hvalue (by decide)).mp hvalueShallow))
  | func hholds hname hvariadic hplaced _ ih =>
      rw [shallow_iff_of_holds hholds hname (by decide), List.forall_mem_map] at hshallow
      refine .func hholds hname hvariadic hplaced fun slot hslot => ih slot hslot ?_
      exact (hplaced slot hslot).shallow_iff.mp (hshallow slot hslot)
  | interface hholds hname hmembers =>
      rw [shallow_members_iff hholds (.inl hname)] at hshallow
      exact .interface hholds hname (hmembers.direct hshallow)
  | struct hholds hname hmembers =>
      rw [shallow_members_iff hholds (.inr hname)] at hshallow
      exact .struct hholds hname (hmembers.direct hshallow)

/-- What holds of elements that stand for something one by one holds of all of them. -/
theorem forall₂_iff_of_forall {α : Type} {R S : Element → α → Prop}
    (h : ∀ e a, R e a → (S e a ↔ shallow e = true)) {elements : List Element} {l : List α}
    (hall : List.Forall₂ R elements l) :
    List.Forall₂ S elements l ↔ ∀ e ∈ elements, shallow e = true := by
  induction hall with
  | nil => simp
  | cons hfirst _ ih => rw [List.forall₂_cons, h _ _ hfirst, ih, List.forall_mem_cons]

theorem FitsField.direct_iff {e : Element} {field : Field} (h : FitsField AllMembers e field) :
    FitsField DirectMembers e field ↔ shallow e = true := by
  rcases h with ⟨tag, type, hwraps, hname, hmark, htype⟩
  rw [shallow_iff_of_wraps hwraps (by decide)]
  constructor
  · rintro ⟨_, _, hwraps', _, _, htype'⟩
    -- An element holds one type only, so both ways are about the same one.
    cases hwraps
    cases hwraps'
    exact htype'.shallow_eq_true
  · exact fun hshallow => ⟨tag, type, hwraps, hname, hmark, htype.direct hshallow⟩

theorem FitsRecord.direct_iff {e : Element} {record : Record}
    (h : FitsRecord AllMembers e record) :
    FitsRecord DirectMembers e record ↔ shallow e = true := by
  rcases h with ⟨tag, inside, hholds, hrecord, hname, hfields⟩
  rw [shallow_iff_of_holds hholds hrecord (by decide),
    ← forall₂_iff_of_forall (fun _ _ => FitsField.direct_iff) hfields]
  constructor
  · rintro ⟨_, _, hholds', _, _, hfields'⟩
    rwa [← hholds.inside_eq, hholds'.inside_eq]
  · exact fun hfields' => ⟨tag, inside, hholds, hrecord, hname, hfields'⟩

/-- An element that stands for a document does so in the intended way exactly if
    no member has an element inside. -/
theorem FitsDocument.direct_iff {e : Element} {document : Document}
    (h : FitsDocument AllMembers e document) :
    FitsDocument DirectMembers e document ↔ shallow e = true := by
  rcases h with ⟨tag, inside, hholds, hpackage, hpath, hname, hrecords, hnodup⟩
  rw [shallow_iff_of_holds hholds hpackage (by decide),
    ← forall₂_iff_of_forall (fun _ _ => FitsRecord.direct_iff) hrecords]
  constructor
  · rintro ⟨_, _, hholds', _, _, _, hrecords', _⟩
    rwa [← hholds.inside_eq, hholds'.inside_eq]
  · exact fun hrecords' => ⟨tag, inside, hholds, hpackage, hpath, hname, hrecords', hnodup⟩

end Descriptor

end FunctionalOptions
