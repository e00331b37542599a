import FunctionalOptions.Proofs.Conversion.Faults
import FunctionalOptions.Proofs.Types.Written

/-!
# Places in a Shape

A converted type has the form of the shape it comes from, so what stands at a place
of the one stands beside something at a place of the other. The exception is the type
of a variadic parameter. It stands beside the elements of a slice, one place further
down than the slice itself.

A shape and a type are walked through together here. It follows that each function
type in a converted type, at whatever depth, comes from a function shape, and what
the two have in common.

## Main definitions

* `Shape.sources`: The shapes that the parts of a type come from.
* `TypeExpr.parts`: The types that a type is directly built from.
* `TypeExpr.Beside`: A shape stands at the place at which a type stands.

## Theorems

* `TypeExpr.forall₂_sources`: The parts of a type are converted from their sources.
* `TypeExpr.exists_beside`: There is a shape beside every part of a converted type.
* `TypeExpr.func_of_ofShape`: What a function type has from its shape.
* `TypeExpr.predeclared_of_ofShape`: The names in a type that the language declares.
-/

namespace FunctionalOptions

open Descriptor (Shape)

/-- The elements of a slice. -/
def Descriptor.Shape.element : Shape → Shape
  | .slice elem => elem
  | shape => shape

/-- The shapes that the parts of a type come from. They are the parts of the shape, but
    for a variadic parameter, of which the type has the elements only. -/
def Descriptor.Shape.sources : Shape → List Shape
  | .func params results true =>
    params.dropLast.map (·.type) ++ params.getLast?.toList.map (·.type.element) ++
      results.map (·.type)
  | shape => shape.parts

namespace Go

namespace TypeExpr

/-- The types that a type is directly built from. -/
def parts : TypeExpr → List TypeExpr
  | .pointer elem => [elem]
  | .slice elem => [elem]
  | .array _ elem => [elem]
  | .channel _ elem => [elem]
  | .map key value => [key, value]
  | .func inputs outputs => inputs.map (·.type) ++ outputs.map (·.type)
  | _ => []

/-- A shape stands at that place of one shape at which a type stands in a type. -/
inductive Beside (s : Shape) (t : TypeExpr) : Shape → TypeExpr → Prop where
  | self : Beside s t s t
  | part {shape source : Shape} {n part : TypeExpr} :
    (source, part) ∈ shape.sources.zip n.parts → Beside s t source part → Beside s t shape n

variable {path : String}

theorem forall₂_types {params : List (Descriptor.Param Shape)} {inputs : List (Param TypeExpr)}
    (h : List.Forall₂ (FixedFrom path) params inputs) :
    List.Forall₂ (fun s t => ofShape path s = .ok t) (params.map (·.type))
      (inputs.map (·.type)) := by
  rw [List.forall₂_map_left_iff, List.forall₂_map_right_iff]
  exact h.imp fun _ _ hp => hp.type

/-- The parts of a type are converted from their sources, one by one. -/
theorem forall₂_sources {shape : Shape} {n : TypeExpr} (h : ofShape path shape = .ok n) :
    List.Forall₂ (fun s t => ofShape path s = .ok t) shape.sources n.parts := by
  cases shape with
  | basic name =>
      rcases (ofShape_basic_eq_ok_iff ..).mp h with ⟨-, rfl⟩
      exact .nil
  | named package name =>
      cases package with
      | none =>
          obtain rfl := Except.ok.inj h
          split <;> exact .nil
      | some package =>
          obtain rfl := Except.ok.inj h
          exact .nil
  | pointer elem =>
      rcases (around_eq_ok_iff pointer _ _).mp h with ⟨type, htype, rfl⟩
      exact .cons htype .nil
  | slice elem =>
      rcases (around_eq_ok_iff slice _ _).mp h with ⟨type, htype, rfl⟩
      exact .cons htype .nil
  | array len elem =>
      rcases (around_eq_ok_iff (array len) _ _).mp h with ⟨type, htype, rfl⟩
      exact .cons htype .nil
  | chan dir elem =>
      rcases (around_eq_ok_iff (channel dir) _ _).mp h with ⟨type, htype, rfl⟩
      exact .cons htype .nil
  | map key value =>
      rcases (ofShape_map_eq_ok_iff ..).mp h with ⟨k, v, hkey, hvalue, rfl⟩
      exact .cons hkey (.cons hvalue .nil)
  | func params results variadic =>
      cases variadic with
      | false =>
          rcases (ofShape_func_false_eq_ok_iff ..).mp h with ⟨inputs, outputs, hin, hout, rfl⟩
          exact List.rel_append (forall₂_types hin) (forall₂_types hout)
      | true =>
          rcases (ofShape_func_true_eq_ok_iff ..).mp h with
            ⟨before, last, fixed, marked, outputs, rfl, hfixed, hmarked, hout, rfl⟩
          -- The last source is what the slice has as its elements.
          rcases hmarked.type with ⟨elem, hslice, helem⟩
          have hlast : ofShape path last.type.element = .ok marked.type := by
            rw [hslice]
            exact helem
          rw [Shape.sources, parts, List.dropLast_concat, List.getLast?_concat, List.map_append]
          exact List.rel_append (List.rel_append (forall₂_types hfixed) (.cons hlast .nil))
            (forall₂_types hout)
  | interface methods =>
      rcases (ofShape_interface_eq_ok_iff ..).mp h with ⟨-, rfl⟩
      exact .nil
  | struct fields =>
      rcases (ofShape_struct_eq_ok_iff ..).mp h with ⟨-, rfl⟩
      exact .nil
  | typeParam name => exact absurd h (ofShape_typeParam_ne_ok name _)
  | unsafePointer => exact absurd h (ofShape_unsafePointer_ne_ok _)

/-- What stands beside a converted type is converted to what it stands beside. -/
theorem Beside.ofShape_eq_ok {s shape : Shape} {t n : TypeExpr} (h : Beside s t shape n)
    (hshape : ofShape path shape = .ok n) : ofShape path s = .ok t := by
  induction h with
  | self => exact hshape
  | part hpair _ ih => exact ih ((List.forall₂_iff_zip.mp (forall₂_sources hshape)).2 hpair)

/-- There is a shape beside every part of a converted type if there is one beside the
    parts of its parts. -/
theorem exists_beside_of_part {shape : Shape} {t n part : TypeExpr}
    (hshape : ofShape path shape = .ok n) (hpart : part ∈ n.parts)
    (h : ∀ source, ofShape path source = .ok part → ∃ s, Beside s t source part) :
    ∃ s, Beside s t shape n := by
  have hsources := forall₂_sources hshape
  -- Sources and parts are as many, so there is a source at the same index.
  rcases List.mem_iff_getElem.mp hpart with ⟨i, hi, rfl⟩
  have hlength : i < shape.sources.length := hsources.length_eq ▸ hi
  have hpair : (shape.sources[i], n.parts[i]) ∈ shape.sources.zip n.parts :=
    List.mem_iff_getElem.mpr ⟨i, List.length_zip ▸ Nat.lt_min.mpr ⟨hlength, hi⟩, List.getElem_zip⟩
  rcases h _ ((List.forall₂_iff_zip.mp hsources).2 hpair) with ⟨s, hs⟩
  exact ⟨s, .part hpair hs⟩

/-- There is a shape beside every part of a converted type. -/
theorem exists_beside {shape : Shape} {t n : TypeExpr} (hshape : ofShape path shape = .ok n)
    (h : Within t n) : ∃ s, Beside s t shape n := by
  induction h generalizing shape with
  | self => exact ⟨shape, .self⟩
  | pointer _ ih | slice _ ih | array _ ih | channel _ ih | key _ ih =>
      exact exists_beside_of_part hshape List.mem_cons_self fun _ => ih
  | value _ ih =>
      exact exists_beside_of_part hshape (List.mem_cons_of_mem _ List.mem_cons_self) fun _ => ih
  | input hp _ ih =>
      exact exists_beside_of_part hshape
        (List.mem_append_left _ (List.mem_map_of_mem hp)) fun _ => ih
  | output hp _ ih =>
      exact exists_beside_of_part hshape
        (List.mem_append_right _ (List.mem_map_of_mem hp)) fun _ => ih

/-- A function type comes from a function shape with as many parameters and results, and
    its last parameter is variadic if the shape says so. -/
theorem func_of_ofShape {s : Shape} {inputs outputs : List (Param TypeExpr)}
    (h : ofShape path s = .ok (.func inputs outputs)) :
    ∃ params results variadic, s = .func params results variadic ∧
      inputs.length = params.length ∧ outputs.length = results.length ∧
      MarksFit inputs outputs ∧ inputs.getLast?.any (·.variadic) = variadic := by
  cases s with
  | func params results variadic =>
      refine ⟨params, results, variadic, rfl, ?_⟩
      cases variadic with
      | false =>
          rcases (ofShape_func_false_eq_ok_iff ..).mp h with ⟨inputs, outputs, hin, hout, heq⟩
          obtain ⟨rfl, rfl⟩ := func.inj heq
          -- Nothing is marked, the last parameter included, if there is one.
          have hunmarked := variadic_of_fixedFrom hin
          refine ⟨hin.length_eq.symm, hout.length_eq.symm,
            ⟨fun q hq => ?_, variadic_of_fixedFrom hout⟩, ?_⟩
          · exact hunmarked q (List.dropLast_subset inputs hq)
          · cases hlast : inputs.getLast? with
            | none => rfl
            | some q => exact hunmarked q (List.mem_of_getLast? hlast)
      | true =>
          rcases (ofShape_func_true_eq_ok_iff ..).mp h with
            ⟨before, last, fixed, marked, outputs, rfl, hfixed, hmarked, hout, heq⟩
          obtain ⟨rfl, rfl⟩ := func.inj heq
          refine ⟨?_, hout.length_eq.symm, ⟨?_, variadic_of_fixedFrom hout⟩, ?_⟩
          · rw [List.length_append, List.length_append, hfixed.length_eq]
            rfl
          · rw [List.dropLast_concat]
            exact variadic_of_fixedFrom hfixed
          · rw [List.getLast?_concat]
            exact hmarked.variadic
  -- The conversion of every other kind of shape ends in a type that is no function.
  | basic name => obtain ⟨_, ⟨⟩⟩ := (ofShape_basic_eq_ok_iff ..).mp h
  | named package name =>
      cases package with
      | none =>
          rw [ofShape] at h
          split at h <;> cases h
      | some package => cases h
  | interface methods => obtain ⟨_, ⟨⟩⟩ := (ofShape_interface_eq_ok_iff ..).mp h
  | struct fields => obtain ⟨_, ⟨⟩⟩ := (ofShape_struct_eq_ok_iff ..).mp h
  | typeParam name => exact absurd h (ofShape_typeParam_ne_ok name _)
  | unsafePointer => exact absurd h (ofShape_unsafePointer_ne_ok _)
  | map key value => obtain ⟨_, _, _, _, ⟨⟩⟩ := (ofShape_map_eq_ok_iff ..).mp h
  | pointer elem => obtain ⟨_, _, ⟨⟩⟩ := (around_eq_ok_iff pointer _ _).mp h
  | slice elem => obtain ⟨_, _, ⟨⟩⟩ := (around_eq_ok_iff slice _ _).mp h
  | array len elem => obtain ⟨_, _, ⟨⟩⟩ := (around_eq_ok_iff (array len) _ _).mp h
  | chan dir elem => obtain ⟨_, _, ⟨⟩⟩ := (around_eq_ok_iff (channel dir) _ _).mp h

/-- A name that the language declares is that of a basic type or of errors, or stands for
    one of the two empty literals. -/
theorem predeclared_of_ofShape {s : Shape} {text : String}
    (h : ofShape path s = .ok (.predeclared text)) :
    isPredeclared text = true ∨ text = "error" ∨
      text ∈ ["interface\x7b\x7d", "struct\x7b\x7d"] := by
  cases s with
  | basic name =>
      rcases (ofShape_basic_eq_ok_iff ..).mp h with ⟨hname, heq⟩
      exact Or.inl (predeclared.inj heq ▸ hname)
  | named package name =>
      cases package with
      | none =>
          rw [ofShape] at h
          split at h
          · -- Without a package there is the type of errors only.
            exact Or.inr (Or.inl (predeclared.inj (Except.ok.inj h)).symm)
          · cases h
      | some package => cases h
  | interface methods =>
      rcases (ofShape_interface_eq_ok_iff ..).mp h with ⟨-, heq⟩
      exact Or.inr (Or.inr (predeclared.inj heq ▸ List.mem_cons_self))
  | struct fields =>
      rcases (ofShape_struct_eq_ok_iff ..).mp h with ⟨-, heq⟩
      exact Or.inr (Or.inr (predeclared.inj heq ▸ List.mem_cons_of_mem _ List.mem_cons_self))
  | func params results variadic =>
      cases variadic with
      | false => obtain ⟨_, _, _, _, ⟨⟩⟩ := (ofShape_func_false_eq_ok_iff ..).mp h
      | true =>
          obtain ⟨_, _, _, _, _, _, _, _, _, ⟨⟩⟩ := (ofShape_func_true_eq_ok_iff ..).mp h
  | typeParam name => exact absurd h (ofShape_typeParam_ne_ok name _)
  | unsafePointer => exact absurd h (ofShape_unsafePointer_ne_ok _)
  | map key value => obtain ⟨_, _, _, _, ⟨⟩⟩ := (ofShape_map_eq_ok_iff ..).mp h
  | pointer elem => obtain ⟨_, _, ⟨⟩⟩ := (around_eq_ok_iff pointer _ _).mp h
  | slice elem => obtain ⟨_, _, ⟨⟩⟩ := (around_eq_ok_iff slice _ _).mp h
  | array len elem => obtain ⟨_, _, ⟨⟩⟩ := (around_eq_ok_iff (array len) _ _).mp h
  | chan dir elem => obtain ⟨_, _, ⟨⟩⟩ := (around_eq_ok_iff (channel dir) _ _).mp h

end TypeExpr

end Go

end FunctionalOptions
