import FunctionalOptions.Proofs.Fallible
import FunctionalOptions.Record.Conversion
import Mathlib.Data.List.Forall2

/-!
# Converted Shapes

Which shapes are converted and what becomes of them, one kind of shape after the
other. Most kinds have a type of the same form with the converted parts in it.
Functions are the exception: the list of their parameters is gone through by a
recursion that watches for its end, where a variadic mark changes what is converted.

The recursion is undone first. A list of parameters with a last one is converted up
to that one as if there were no mark, and the last one by itself. What remains to be
known about a converted function is then how each of its parameters came about, and
there are two ways.

## Main definitions

* `TypeExpr.endOf`: The conversion of a parameter at the end of a list.
* `TypeExpr.FixedFrom`, `TypeExpr.MarkedFrom`: What a parameter comes from.

## Theorems

* `TypeExpr.inputsOf_concat`: The last of some parameters comes after the others.
* `TypeExpr.around_eq_ok_iff`: A type around another one.
* `TypeExpr.ofShape_basic_eq_ok_iff` and its siblings: What a shape of one kind is
  converted to.
-/

namespace FunctionalOptions

namespace Go

namespace TypeExpr

open Descriptor (Shape)

variable {path : String}

-- The equations of the conversion are what all of this rests on.
attribute [local simp] ofShape inputsOf paramOf lastOf

/-- The parameter at the end of a list, which is variadic if so marked. -/
def endOf (path : String) (variadic : Bool) (p : Descriptor.Param Shape) :
    Except RecordError (Param TypeExpr) :=
  if variadic then lastOf path p else paramOf path p

theorem inputsOf_singleton (path : String) (variadic : Bool) (p : Descriptor.Param Shape) :
    inputsOf path variadic [p] = do return [← endOf path variadic p] := by
  cases variadic <;> rw [inputsOf, endOf] <;> rfl

theorem inputsOf_cons {rest : List (Descriptor.Param Shape)} (h : rest ≠ []) (path : String)
    (variadic : Bool) (p : Descriptor.Param Shape) :
    inputsOf path variadic (p :: rest) = do
      let first ← paramOf path p
      let others ← inputsOf path variadic rest
      return first :: others := by
  cases rest with
  | nil => exact absurd rfl h
  | cons q rest => rw [inputsOf]

theorem inputsOf_false_cons (path : String) (p : Descriptor.Param Shape)
    (rest : List (Descriptor.Param Shape)) :
    inputsOf path false (p :: rest) = do
      let first ← paramOf path p
      let others ← inputsOf path false rest
      return first :: others := by
  cases rest with
  | nil =>
      rw [inputsOf_singleton, endOf, if_neg Bool.false_ne_true, inputsOf]
      rfl
  | cons q rest => exact inputsOf_cons (List.cons_ne_nil q rest) path false p

/-- Parameters are gone through from the first to the last, which alone may be
    variadic. -/
theorem inputsOf_concat (path : String) (variadic : Bool)
    (before : List (Descriptor.Param Shape)) (last : Descriptor.Param Shape) :
    inputsOf path variadic (before ++ [last]) = do
      let fixed ← inputsOf path false before
      let last ← endOf path variadic last
      return fixed ++ [last] := by
  induction before with
  | nil =>
      rw [List.nil_append, inputsOf_singleton, inputsOf]
      rfl
  | cons p rest ih =>
      rw [List.cons_append, inputsOf_cons (List.append_ne_nil_of_right_ne_nil _
        (List.cons_ne_nil _ _)), ih, inputsOf_false_cons]
      simp only [bind_assoc, pure_bind, List.cons_append]

/-- A parameter that is not variadic has the name and the converted type of what it
    comes from. -/
structure FixedFrom (path : String) (p : Descriptor.Param Shape) (q : Param TypeExpr) : Prop where
  name : q.name = p.name
  type : ofShape path p.type = .ok q.type
  variadic : q.variadic = false

/-- A variadic parameter has the name of what it comes from, and the converted type of
    the elements of its slice. -/
structure MarkedFrom (path : String) (p : Descriptor.Param Shape) (q : Param TypeExpr) : Prop where
  name : q.name = p.name
  type : ∃ elem, p.type = .slice elem ∧ ofShape path elem = .ok q.type
  variadic : q.variadic = true

theorem paramOf_eq (path : String) (p : Descriptor.Param Shape) :
    paramOf path p = do return ⟨p.name, ← ofShape path p.type, false⟩ := by
  cases p
  rw [paramOf]

theorem paramOf_eq_ok_iff (p : Descriptor.Param Shape) (q : Param TypeExpr) :
    paramOf path p = .ok q ↔ FixedFrom path p q := by
  rw [paramOf_eq, Except.bind_eq_ok_iff]
  constructor
  · rintro ⟨type, htype, h⟩
    obtain rfl := Except.ok.inj h
    exact ⟨rfl, htype, rfl⟩
  · rintro ⟨hname, htype, hvariadic⟩
    -- A parameter with these three values is the one that the conversion builds.
    exact ⟨q.type, htype, by rw [← hname, ← hvariadic]; rfl⟩

theorem lastOf_eq_ok_iff (p : Descriptor.Param Shape) (q : Param TypeExpr) :
    lastOf path p = .ok q ↔ MarkedFrom path p q := by
  rcases p with ⟨name, type⟩
  cases type with
  | slice elem =>
      rw [lastOf, Except.bind_eq_ok_iff]
      constructor
      · rintro ⟨type, htype, h⟩
        obtain rfl := Except.ok.inj h
        exact ⟨rfl, ⟨elem, rfl, htype⟩, rfl⟩
      · rintro ⟨hname, ⟨_, heq, htype⟩, hvariadic⟩
        obtain rfl := Shape.slice.inj heq
        exact ⟨q.type, htype, by rw [← hvariadic]; cases q; cases hname; rfl⟩
  | _ =>
      refine iff_of_false (fun h => ?_) fun ⟨_, ⟨_, heq, _⟩, _⟩ => nomatch heq
      rw [lastOf] at h
      · exact nomatch h
      · exact fun _ heq => nomatch heq

/-- Parameters of which none is variadic are converted one by one. -/
theorem inputsOf_false_eq_ok_iff (params : List (Descriptor.Param Shape))
    (inputs : List (Param TypeExpr)) :
    inputsOf path false params = .ok inputs ↔ List.Forall₂ (FixedFrom path) params inputs := by
  induction params generalizing inputs with
  | nil =>
      rw [inputsOf, Except.ok.injEq, List.forall₂_nil_left_iff]
      exact eq_comm
  | cons p rest ih =>
      simp only [inputsOf_false_cons, Except.bind_eq_ok_iff, paramOf_eq_ok_iff, ih,
        List.forall₂_cons_left_iff]
      constructor
      · rintro ⟨first, hfirst, others, hothers, h⟩
        exact ⟨first, others, hfirst, hothers, (Except.ok.inj h).symm⟩
      · rintro ⟨first, others, hfirst, hothers, rfl⟩
        exact ⟨first, hfirst, others, hothers, rfl⟩

/-- No parameter that is converted like this is variadic. -/
theorem variadic_of_fixedFrom {params : List (Descriptor.Param Shape)}
    {inputs : List (Param TypeExpr)} (h : List.Forall₂ (FixedFrom path) params inputs) :
    ∀ q ∈ inputs, q.variadic = false := by
  induction h with
  | nil => exact fun _ hq => absurd hq List.not_mem_nil
  | cons hfirst _ ih => exact List.forall_mem_cons.mpr ⟨hfirst.variadic, ih⟩

/-! ## Kinds of shapes -/

/-- A type around another one comes about when the other one does. The kinds of shapes
    with a single part are all of this form. -/
theorem around_eq_ok_iff (around : TypeExpr → TypeExpr) (elem : Except RecordError TypeExpr)
    (n : TypeExpr) :
    (do return around (← elem)) = .ok n ↔ ∃ type, elem = .ok type ∧ around type = n := by
  rw [Except.bind_eq_ok_iff]
  exact exists_congr fun _ => and_congr_right fun _ => ⟨Except.ok.inj, congrArg Except.ok⟩

theorem ofShape_basic_eq_ok_iff (name : String) (n : TypeExpr) :
    ofShape path (.basic name) = .ok n ↔ isPredeclared name = true ∧ .predeclared name = n := by
  rw [ofShape]
  by_cases h : isPredeclared name = true
  · rw [if_pos h, Except.ok.injEq, and_iff_right h]
  · rw [if_neg h]
    exact iff_of_false (fun h => nomatch h) fun hname => h hname.1

theorem ofShape_interface_eq_ok_iff (methods : List String) (n : TypeExpr) :
    ofShape path (.interface methods) = .ok n ↔
      methods = [] ∧ .predeclared "interface\x7b\x7d" = n := by
  cases methods with
  | nil => rw [ofShape, Except.ok.injEq, and_iff_right rfl]
  | cons method others => exact iff_of_false (fun h => nomatch h) fun h => nomatch h.1

theorem ofShape_struct_eq_ok_iff (fields : List String) (n : TypeExpr) :
    ofShape path (.struct fields) = .ok n ↔ fields = [] ∧ .predeclared "struct\x7b\x7d" = n := by
  cases fields with
  | nil => rw [ofShape, Except.ok.injEq, and_iff_right rfl]
  | cons field others => exact iff_of_false (fun h => nomatch h) fun h => nomatch h.1

theorem ofShape_map_eq_ok_iff (key value : Shape) (n : TypeExpr) :
    ofShape path (.map key value) = .ok n ↔
      ∃ k v, ofShape path key = .ok k ∧ ofShape path value = .ok v ∧ .map k v = n := by
  simp only [ofShape, Except.bind_eq_ok_iff]
  constructor
  · rintro ⟨k, hkey, v, hvalue, h⟩
    exact ⟨k, v, hkey, hvalue, Except.ok.inj h⟩
  · rintro ⟨k, v, hkey, hvalue, rfl⟩
    exact ⟨k, hkey, v, hvalue, rfl⟩

theorem ofShape_typeParam_ne_ok (name : String) (n : TypeExpr) :
    ofShape path (.typeParam name) ≠ .ok n := by
  rw [ofShape]
  rintro ⟨⟩

theorem ofShape_unsafePointer_ne_ok (n : TypeExpr) : ofShape path .unsafePointer ≠ .ok n := by
  rw [ofShape]
  rintro ⟨⟩

/-- A function shape without a variadic mark becomes a function type of which no
    parameter is variadic. -/
theorem ofShape_func_false_eq_ok_iff (params results : List (Descriptor.Param Shape))
    (n : TypeExpr) :
    ofShape path (.func params results false) = .ok n ↔
      ∃ inputs outputs, List.Forall₂ (FixedFrom path) params inputs ∧
        List.Forall₂ (FixedFrom path) results outputs ∧ .func inputs outputs = n := by
  rw [ofShape, Bool.false_and, if_neg Bool.false_ne_true]
  simp only [Except.bind_eq_ok_iff, inputsOf_false_eq_ok_iff]
  constructor
  · rintro ⟨inputs, hin, outputs, hout, h⟩
    exact ⟨inputs, outputs, hin, hout, Except.ok.inj h⟩
  · rintro ⟨inputs, outputs, hin, hout, rfl⟩
    exact ⟨inputs, hin, outputs, hout, rfl⟩

/-- One with a variadic mark has to have parameters. All but the last are converted as
    they are, and the last is the slice of what the variadic parameter takes. -/
theorem ofShape_func_true_eq_ok_iff (params results : List (Descriptor.Param Shape))
    (n : TypeExpr) :
    ofShape path (.func params results true) = .ok n ↔
      ∃ before last fixed marked outputs, params = before ++ [last] ∧
        List.Forall₂ (FixedFrom path) before fixed ∧ MarkedFrom path last marked ∧
        List.Forall₂ (FixedFrom path) results outputs ∧
        .func (fixed ++ [marked]) outputs = n := by
  rw [ofShape]
  rcases List.eq_nil_or_concat' params with rfl | ⟨before, last, rfl⟩
  · -- Without parameters there is nothing to carry the mark, and the conversion fails.
    simp
  · have hsome : (true && (before ++ [last]).isEmpty) = false := by simp
    rw [hsome, if_neg Bool.false_ne_true, inputsOf_concat, endOf, if_pos rfl]
    simp only [Except.bind_eq_ok_iff, inputsOf_false_eq_ok_iff, lastOf_eq_ok_iff]
    constructor
    · rintro ⟨_, ⟨fixed, hfixed, marked, hmarked, hin⟩, outputs, hout, h⟩
      obtain rfl := Except.ok.inj hin
      exact ⟨before, last, fixed, marked, outputs, rfl, hfixed, hmarked, hout, Except.ok.inj h⟩
    · rintro ⟨_, _, fixed, marked, outputs, hsplit, hfixed, hmarked, hout, rfl⟩
      -- There is only one way to cut a list before its last entry.
      obtain ⟨rfl, hlast⟩ := List.append_inj' hsplit rfl
      obtain rfl := List.singleton_injective hlast
      exact ⟨_, ⟨fixed, hfixed, marked, hmarked, rfl⟩, outputs, hout, rfl⟩

end TypeExpr

end Go

end FunctionalOptions
