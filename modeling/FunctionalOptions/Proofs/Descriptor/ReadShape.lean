import FunctionalOptions.Proofs.Descriptor.AcceptedShape
import FunctionalOptions.Proofs.Descriptor.Markup
import FunctionalOptions.Proofs.Text.Decimal
import FunctionalOptions.Proofs.Xml.Elements

/-!
# Shapes from What Was Written for Them

A shape is read from its element, however the element was written. An element
without contents may be one tag or two, a value that goes without saying may be
said, and the children of maps and functions come in whatever order. What such
elements have in common is what the grammar asks of them, so it is enough that
the elements written for a shape stand for it; that they are read follows.

The elements of a container and of the type inside it are written one inside the
other, so what is shown of a shape is that its elements stand for it wherever
they are.

## Main definitions

* `WrittenFor`: A node is written as an element that stands for a shape.

## Theorems

* `optional_eq`, `required_eq`: What is asked of a tag is answered from the
  attributes it was written for.
* `holds_of_conveys`: One tag and two are alike in what they hold.
* `exists_slots`: The parameters and results of a function keep their order, each
  among themselves.
* `Describes.writtenFor`: The element of a shape is written for it.
-/

namespace FunctionalOptions

namespace Descriptor

open Xml (Conveys Element Holds Node Tag Wraps)

/-! ## Attributes -/

section Attributes

variable {tag : Tag} {name : String} {attributes : List (String × String)}

theorem attributesOf_eq (h : tag.Has name attributes) : ∃ found,
    attributesOf tag = .ok found ∧ ∀ key, found.lookup key = attributes.lookup key := by
  rcases h.attributes_eq with ⟨found, hfound, hlookup⟩
  refine ⟨found, ?_, hlookup⟩
  rw [attributesOf, hfound]
  rfl

theorem optional_eq (h : tag.Has name attributes) (key : String) :
    optional tag key = .ok (attributes.lookup key) := by
  rcases attributesOf_eq h with ⟨found, hfound, hlookup⟩
  rw [optional, hfound, ← hlookup]
  rfl

theorem required_eq (h : tag.Has name attributes) {key value : String}
    (hkey : attributes.lookup key = some value) (element : String) :
    required tag element key = .ok value := by
  rw [required, optional_eq h, hkey]
  rfl

/-- The attribute that is there for a value that is there. -/
theorem lookup_optionalAttribute (key : String) (value : Option String) :
    (optionalAttribute key value).lookup key = value := by
  cases value with
  | none => rfl
  | some value => exact List.lookup_cons_self

/-- The words for a direction are read as the direction. -/
theorem ofName?_of_mem {dir : Go.Direction} {word : String} (h : word ∈ directionWords dir) :
    Go.Direction.ofName? word = some dir := by
  -- There are three directions with a few words each.
  have hall : ∀ dir, ∀ word ∈ directionWords dir, Go.Direction.ofName? word = some dir := by
    intro dir
    cases dir <;> decide +kernel
  exact hall dir word h

/-- The words for a truth value are read as the truth value. -/
theorem truthOf?_of_mem {value : Bool} {word : String} (h : word ∈ truthWords value) :
    truthOf? word = some value := by
  have hall : ∀ value, ∀ word ∈ truthWords value, truthOf? word = some value := by
    decide
  exact hall value word h

theorem readDirection_eq (h : tag.Has name attributes) {dir : Go.Direction}
    (hdir : UsualAttribute "dir" directionWords .both dir attributes) :
    readDirection tag = .ok dir := by
  rw [readDirection, optional_eq h]
  -- What is not said is the usual direction, and a word that is said is one of those for it.
  cases hdir with
  | unsaid => rfl
  | said hword =>
      rw [List.lookup_cons_self]
      show interpret _ _ _ _ = _
      rw [interpret, ofName?_of_mem hword]

theorem readVariadic_eq (h : tag.Has name attributes) {variadic : Bool}
    (hvariadic : UsualAttribute "variadic" truthWords false variadic attributes) :
    readVariadic tag = .ok variadic := by
  rw [readVariadic, optional_eq h]
  cases hvariadic with
  | unsaid => rfl
  | said hword =>
      rw [List.lookup_cons_self]
      show interpret _ _ _ _ = _
      rw [interpret, truthOf?_of_mem hword]

/-- An array length is read from its numeral. -/
theorem lengthOf?_toString (len : UInt64) : lengthOf? (toString len.toNat) = some len := by
  obtain ⟨c, rest, hdigits, hc, hrest, -⟩ := Text.toDigits_cons len.toNat
  have hplus : c ≠ '+' := by
    rintro rfl
    exact absurd hc (by decide)
  have hall : (Nat.toDigits 10 len.toNat).all Char.isDigit = true := by
    rw [hdigits]
    exact List.all_eq_true.mpr (List.forall_mem_cons.mpr ⟨hc, hrest⟩)
  -- The digits are followed as the reader does, which is how a numeral is valued.
  have hvalue : (Nat.toDigits 10 len.toNat).foldl (fun n c => 10 * n + (c.toNat - '0'.toNat)) 0 =
      len.toNat := Nat.ofDigitChars_ten_toDigits
  have hword : wordOfDigits? (Nat.toDigits 10 len.toNat) = some len := by
    have hne : (Nat.toDigits 10 len.toNat).isEmpty = false := by
      rw [hdigits]
      rfl
    have hsize : len.toNat < UInt64.size := len.toNat_lt
    simp only [wordOfDigits?, hall, hne, hvalue, hsize, if_true, UInt64.ofNat_toNat]
    rfl
  rw [lengthOf?, Nat.toString_eq_ofList_toDigits, String.toList_ofList]
  split
  · next heq =>
    rw [hdigits] at heq
    exact absurd (List.cons.inj heq).1 hplus
  · exact hword

theorem readLength_eq {len : UInt64} (h : tag.Has name [("len", toString len.toNat)]) :
    readLength tag = .ok len := by
  rw [readLength, required_eq h List.lookup_cons_self]
  show interpret _ _ _ _ = _
  rw [interpret, lengthOf?_toString]

theorem readNamed_eq {package : Option Package} {type : String}
    (h : tag.Has name (packageAttributes package ++ [("name", type)])) :
    readNamed tag = .ok (.named package type) := by
  have hname : (packageAttributes package ++ [("name", type)]).lookup "name" = some type := by
    rcases package with _ | ⟨path, _ | short⟩ <;> rfl
  rw [readNamed, required_eq h hname, optional_eq h, optional_eq h]
  rcases package with _ | ⟨path, _ | short⟩ <;> rfl

end Attributes

/-! ## Shapes -/

/-- The first of the elements has what the first of the nodes has. One tag and two
    are alike in that. -/
theorem holds_of_conveys {name : String} {attributes : List (String × String)}
    {children nodes : List Node} {elements : List Element}
    (h : Conveys (.element name attributes children :: nodes) elements) :
    ∃ e others tag inside, elements = e :: others ∧ Holds e tag inside ∧
      tag.Has name attributes ∧ Conveys children inside ∧ Conveys nodes others := by
  cases h with
  | empty htag hrest => exact ⟨_, _, _, [], rfl, .empty _, htag, .nil, hrest⟩
  | node htag hinside hrest => exact ⟨_, _, _, _, rfl, .node _ _, htag, hinside, hrest⟩

/-- Members are written for what they are. -/
theorem allMembers_of_conveys {member : String} {names : List String} {elements : List Element}
    (h : Conveys (names.map (memberNode member)) elements) :
    AllMembers member elements names := by
  induction names generalizing elements with
  | nil =>
      cases h
      exact .nil
  | cons name names ih =>
      rcases holds_of_conveys h with ⟨e, others, tag, inside, rfl, hholds, htag, hinside, hrest⟩
      -- There are no members inside a member, so its name comes alone.
      cases hinside
      have hname : optional tag "name" = .ok (some name) := optional_eq htag "name"
      exact .cons hholds htag.name_eq hname .nil (ih hrest)

/-- The node is written as an element that stands for the shape. -/
def WrittenFor (node : Node) (shape : Shape) : Prop :=
  ∀ elements, Conveys [node] elements → ∃ e, elements = [e] ∧ Fits AllMembers e shape

/-- An element that holds one type holds it as it was written. -/
theorem WrittenFor.wraps {name : String} {attributes : List (String × String)} {type : Node}
    {shape : Shape} (h : WrittenFor type shape) {nodes : List Node} {elements : List Element}
    (helements : Conveys (typeNode name attributes type :: nodes) elements) :
    ∃ e others tag inner, elements = e :: others ∧ Wraps name e tag inner ∧
      tag.Has name attributes ∧ Fits AllMembers inner shape ∧ Conveys nodes others := by
  cases helements with | @node _ _ _ tag inside _ others htag hinside hrest =>
  rcases h inside hinside with ⟨inner, rfl, hinner⟩
  exact ⟨_, others, tag, inner, rfl, .intro inner htag.name_eq, htag, hinner, hrest⟩

/-- The key and the value of a map are written in either order. -/
theorem fits_map {keyType valueType : Node} {key value : Shape} {children : List Node}
    (hkey : WrittenFor keyType key) (hvalue : WrittenFor valueType value)
    (hchildren : children.Perm [typeNode "key" [] keyType, typeNode "value" [] valueType])
    {e : Element} {tag : Tag} {inside : List Element} (hholds : Holds e tag inside)
    (hname : tag.name = "map") (hinside : Conveys children inside) :
    Fits AllMembers e (.map key value) := by
  rcases eq_or_eq_of_perm hchildren with rfl | rfl
  · rcases hkey.wraps hinside with ⟨_, _, _, _, rfl, hkeyWraps, _, hkeyFits, hrest⟩
    rcases hvalue.wraps hrest with ⟨_, _, _, _, rfl, hvalueWraps, _, hvalueFits, hend⟩
    cases hend
    exact .map hholds hname (List.Perm.refl _) hkeyWraps hvalueWraps hkeyFits hvalueFits
  · rcases hvalue.wraps hinside with ⟨_, _, _, _, rfl, hvalueWraps, _, hvalueFits, hrest⟩
    rcases hkey.wraps hrest with ⟨_, _, _, _, rfl, hkeyWraps, _, hkeyFits, hend⟩
    cases hend
    exact .map hholds hname (List.Perm.swap _ _ _) hkeyWraps hvalueWraps hkeyFits hvalueFits

/-- Parameters and results are written as slots. -/
theorem exists_slots {operands : List Operand}
    (h : ∀ operand ∈ operands, WrittenFor operand.type operand.param.type)
    {inside : List Element} (hinside : Conveys (operands.map Operand.node) inside) :
    ∃ slots : List Slot, inside = slots.map Slot.element ∧ (∀ slot ∈ slots, slot.Placed) ∧
      (∀ slot ∈ slots, Fits AllMembers slot.type slot.param.type) ∧
        Slot.params slots = Operand.params operands ∧
          Slot.results slots = Operand.results operands := by
  induction operands generalizing inside with
  | nil =>
      cases hinside
      exact ⟨[], rfl, List.forall_mem_nil _, List.forall_mem_nil _, rfl, rfl⟩
  | cons operand operands ih =>
      rw [List.forall_mem_cons] at h
      rcases operand with ⟨isResult, ⟨name, shape⟩, type⟩
      -- The first element is that of the first operand, and the others are left for the rest.
      rcases h.1.wraps hinside with ⟨e, others, tag, inner, rfl, hwraps, htag, hfits, hrest⟩
      rcases ih h.2 hrest with ⟨slots, rfl, hplaced, htypes, hparams, hresults⟩
      have hname := optional_eq htag "name"
      rw [lookup_optionalAttribute] at hname
      refine ⟨⟨isResult, ⟨name, shape⟩, e, inner⟩ :: slots, rfl,
        List.forall_mem_cons.mpr ⟨⟨tag, hwraps, hname⟩, hplaced⟩,
        List.forall_mem_cons.mpr ⟨hfits, htypes⟩, ?_⟩
      -- It is the slot that knows which of the two lists it counts for.
      cases isResult with
      | false => exact ⟨congrArg (List.cons _) hparams, hresults⟩
      | true => exact ⟨hparams, congrArg (List.cons _) hresults⟩

/-- The element of a shape is written for it. -/
theorem Describes.writtenFor {node : Node} {shape : Shape} (h : Describes node shape) :
    WrittenFor node shape := by
  induction h with
  | basic name =>
      intro elements helements
      rcases holds_of_conveys helements with ⟨e, _, tag, _, rfl, hholds, htag, _, ⟨⟩⟩
      exact ⟨e, rfl, .basic hholds htag.name_eq (optional_eq htag "name")⟩
  | named package name =>
      intro elements helements
      rcases holds_of_conveys helements with ⟨e, _, tag, _, rfl, hholds, htag, _, ⟨⟩⟩
      exact ⟨e, rfl, .named hholds htag.name_eq (readNamed_eq htag)⟩
  | typeParam name =>
      intro elements helements
      rcases holds_of_conveys helements with ⟨e, _, tag, _, rfl, hholds, htag, _, ⟨⟩⟩
      exact ⟨e, rfl, .typeParam hholds htag.name_eq (optional_eq htag "name")⟩
  | unsafePointer =>
      intro elements helements
      rcases holds_of_conveys helements with ⟨e, _, tag, _, rfl, hholds, htag, _, ⟨⟩⟩
      exact ⟨e, rfl, .unsafePointer hholds htag.name_eq⟩
  | pointer _ ih =>
      intro elements helements
      rcases ih.wraps helements with ⟨e, _, tag, inner, rfl, hwraps, _, hfits, ⟨⟩⟩
      exact ⟨e, rfl, .pointer hwraps hfits⟩
  | slice _ ih =>
      intro elements helements
      rcases ih.wraps helements with ⟨e, _, tag, inner, rfl, hwraps, _, hfits, ⟨⟩⟩
      exact ⟨e, rfl, .slice hwraps hfits⟩
  | array len _ ih =>
      intro elements helements
      rcases ih.wraps helements with ⟨e, _, tag, inner, rfl, hwraps, htag, hfits, ⟨⟩⟩
      exact ⟨e, rfl, .array hwraps (readLength_eq htag) hfits⟩
  | chan hdir _ ih =>
      intro elements helements
      rcases ih.wraps helements with ⟨e, _, tag, inner, rfl, hwraps, htag, hfits, ⟨⟩⟩
      exact ⟨e, rfl, .chan hwraps (readDirection_eq htag hdir) hfits⟩
  | map _ _ hchildren ihKey ihValue =>
      intro elements helements
      rcases holds_of_conveys helements with ⟨e, _, tag, _, rfl, hholds, htag, hinside, ⟨⟩⟩
      exact ⟨e, rfl, fits_map ihKey ihValue hchildren hholds htag.name_eq hinside⟩
  | func hvariadic _ ih =>
      intro elements helements
      rcases holds_of_conveys helements with ⟨e, _, tag, _, rfl, hholds, htag, hinside, ⟨⟩⟩
      rcases exists_slots ih hinside with ⟨slots, rfl, hplaced, htypes, hparams, hresults⟩
      rw [← hparams, ← hresults]
      exact ⟨e, rfl, .func hholds htag.name_eq (readVariadic_eq htag hvariadic) hplaced htypes⟩
  | interface methods =>
      intro elements helements
      rcases holds_of_conveys helements with ⟨e, _, tag, _, rfl, hholds, htag, hinside, ⟨⟩⟩
      exact ⟨e, rfl, .interface hholds htag.name_eq (allMembers_of_conveys hinside)⟩
  | struct fields =>
      intro elements helements
      rcases holds_of_conveys helements with ⟨e, _, tag, _, rfl, hholds, htag, hinside, ⟨⟩⟩
      exact ⟨e, rfl, .struct hholds htag.name_eq (allMembers_of_conveys hinside)⟩

end Descriptor

end FunctionalOptions
