import FunctionalOptions.Proofs.Conversion.Inversion
import FunctionalOptions.Proofs.Descriptor.Written

/-!
# Undoing a Conversion

No two shapes are taken for the same type by accident. A type has all that its shape
says, and the shape can be built from it again. Basic names, `error` and the two
empty literals all become names that the language declares, but no two of them the
same name. A variadic parameter has lost its slice, and its mark says so.

The one thing that is not kept is whether the short name of a package was written
down. A package without one gets the last segment of its path, and writing that
down makes no difference. So the shape that is built again is the shape with all short
names written out, and two shapes become the same type exactly when they do not differ
once theirs are.

## Main definitions

* `Shape.spelledOut`: The shape with the short names of its packages written out.
* `TypeExpr.shape`: The shape that a type comes from.

## Theorems

* `TypeExpr.shape_of_ofShape`: A type has its shape back.
* `TypeExpr.ofShape_spelledOut`: Writing out short names does not change the type.
* `TypeExpr.ofShape_eq_iff_spelledOut`: When two shapes become the same type.
-/

namespace FunctionalOptions

namespace Descriptor

/-- The package with its short name written out. Without one the short name is the last
    segment of the path. -/
def Package.spelledOut (package : Package) : Package :=
  ⟨package.path, some (package.name.getD (Go.lastSegment package.path))⟩

namespace Shape

mutual

/-- The shape with the short names of all its packages written out. -/
def spelledOut : Shape → Shape
  | .named package name => .named (package.map Package.spelledOut) name
  | .pointer elem => .pointer elem.spelledOut
  | .array len elem => .array len elem.spelledOut
  | .slice elem => .slice elem.spelledOut
  | .chan dir elem => .chan dir elem.spelledOut
  | .map key value => .map key.spelledOut value.spelledOut
  | .func params results variadic =>
    .func (spelledOutParams params) (spelledOutParams results) variadic
  | shape => shape

/-- Parameters with the short names in their types written out. -/
def spelledOutParams : List (Param Shape) → List (Param Shape)
  | [] => []
  | p :: rest => spelledOutParam p :: spelledOutParams rest

/-- A parameter with the short names in its type written out. -/
def spelledOutParam : Param Shape → Param Shape
  | ⟨name, type⟩ => ⟨name, type.spelledOut⟩

end

theorem spelledOutParams_eq (params : List (Param Shape)) :
    spelledOutParams params = params.map spelledOutParam := by
  induction params with
  | nil => rw [spelledOutParams, List.map_nil]
  | cons p rest ih => rw [spelledOutParams, ih, List.map_cons]

end Shape

end Descriptor

namespace Go

open Descriptor (Shape)

namespace TypeExpr

/-- The shape that a name without a package comes from. -/
def shapeOfPredeclared (name : String) : Shape :=
  if name = "error" then .named none name
  else if name = "interface\x7b\x7d" then .interface []
  else if name = "struct\x7b\x7d" then .struct []
  else .basic name

mutual

/-- The shape that a type comes from, with the short names of packages written out. A
    variadic parameter comes from a slice. -/
def shape : TypeExpr → Shape
  | .predeclared name => shapeOfPredeclared name
  | .named package name => .named (package.map fun p => ⟨p.path, some p.name⟩) name
  | .pointer elem => .pointer elem.shape
  | .slice elem => .slice elem.shape
  | .array len elem => .array len elem.shape
  | .channel dir elem => .chan dir elem.shape
  | .map key value => .map key.shape value.shape
  | .func inputs outputs =>
    .func (paramShapes inputs) (paramShapes outputs) (inputs.any (·.variadic))

/-- The shapes that parameters come from. -/
def paramShapes : List (Param TypeExpr) → List (Descriptor.Param Shape)
  | [] => []
  | p :: rest => paramShape p :: paramShapes rest

/-- The shape that a parameter comes from. -/
def paramShape : Param TypeExpr → Descriptor.Param Shape
  | ⟨name, type, variadic⟩ => ⟨name, if variadic then .slice type.shape else type.shape⟩

end

variable {path other : String}

/-- A basic name is none of those that stand for other shapes. -/
theorem shapeOfPredeclared_of_isPredeclared {name : String} (h : isPredeclared name = true) :
    shapeOfPredeclared name = .basic name := by
  have hother : ∀ other, isPredeclared other = false → name ≠ other := by
    rintro other hfalse rfl
    exact Bool.false_ne_true (hfalse.symm.trans h)
  rw [shapeOfPredeclared, if_neg (hother _ (by decide)), if_neg (hother _ (by decide)),
    if_neg (hother _ (by decide))]

/-- A parameter that is not variadic comes from the one it has been converted from. -/
theorem paramShape_of_fixed {p : Descriptor.Param Shape} {q : Param TypeExpr}
    (h : FixedFrom path p q)
    (ih : ∀ n, ofShape path p.type = .ok n → n.shape = p.type.spelledOut) :
    paramShape q = Shape.spelledOutParam p := by
  rcases q with ⟨name, type, variadic⟩
  obtain rfl : variadic = false := h.variadic
  obtain rfl : name = p.name := h.name
  rw [paramShape, if_neg Bool.false_ne_true, ih type h.type]
  cases p
  rw [Shape.spelledOutParam]

/-- So does one that is variadic, since its slice is put back. -/
theorem paramShape_of_marked {p : Descriptor.Param Shape} {q : Param TypeExpr}
    (h : MarkedFrom path p q)
    (ih : ∀ n, ofShape path p.type = .ok n → n.shape = p.type.spelledOut) :
    paramShape q = Shape.spelledOutParam p := by
  rcases q with ⟨name, type, variadic⟩
  obtain rfl : variadic = true := h.variadic
  obtain rfl : name = p.name := h.name
  rcases h.type with ⟨elem, hslice, helem⟩
  -- The induction is on the slice, so it has to be put together for the hypothesis.
  have hwhole : ofShape path p.type = .ok (.slice type) := by
    rw [hslice, ofShape, helem]
    rfl
  have hshape : Shape.slice type.shape = p.type.spelledOut := ih _ hwhole
  rw [paramShape, if_pos rfl, hshape]
  cases p
  rw [Shape.spelledOutParam]

/-- Parameters come from some shapes if they do one by one. -/
theorem paramShapes_eq_of_forall₂ {params : List (Descriptor.Param Shape)}
    {inputs : List (Param TypeExpr)}
    (h : List.Forall₂ (fun p q => paramShape q = Shape.spelledOutParam p) params inputs) :
    paramShapes inputs = Shape.spelledOutParams params := by
  induction h with
  | nil => rw [paramShapes, Shape.spelledOutParams]
  | cons hfirst _ ih => rw [paramShapes, Shape.spelledOutParams, hfirst, ih]

/-- Parameters that are not variadic come from those they have been converted from. -/
theorem forall₂_paramShape {params : List (Descriptor.Param Shape)}
    {inputs : List (Param TypeExpr)} (h : List.Forall₂ (FixedFrom path) params inputs)
    (ih : ∀ p ∈ params, ∀ n, ofShape path p.type = .ok n → n.shape = p.type.spelledOut) :
    List.Forall₂ (fun p q => paramShape q = Shape.spelledOutParam p) params inputs :=
  ((List.forall₂_and_left _ _).mpr ⟨ih, h⟩).imp fun _ _ ⟨hp, hfixed⟩ =>
    paramShape_of_fixed hfixed hp

theorem shape_of_ofShape_func {params results : List (Descriptor.Param Shape)} {variadic : Bool}
    {n : TypeExpr} (h : ofShape path (.func params results variadic) = .ok n)
    (ihParams : ∀ p ∈ params, ∀ n, ofShape path p.type = .ok n → n.shape = p.type.spelledOut)
    (ihResults : ∀ p ∈ results, ∀ n, ofShape path p.type = .ok n → n.shape = p.type.spelledOut) :
    n.shape = (Shape.func params results variadic).spelledOut := by
  -- Whether the shape has a variadic mark is read off from the parameters that have come about.
  cases variadic with
  | false =>
      rcases (ofShape_func_false_eq_ok_iff ..).mp h with ⟨inputs, outputs, hin, hout, rfl⟩
      have hmarks : inputs.any (·.variadic) = false :=
        List.any_eq_false.mpr fun q hq => Bool.eq_false_iff.mp (variadic_of_fixedFrom hin q hq)
      rw [shape, Shape.spelledOut, hmarks,
        paramShapes_eq_of_forall₂ (forall₂_paramShape hin ihParams),
        paramShapes_eq_of_forall₂ (forall₂_paramShape hout ihResults)]
  | true =>
      rcases (ofShape_func_true_eq_ok_iff ..).mp h with
        ⟨before, last, fixed, marked, outputs, rfl, hfixed, hmarked, hout, rfl⟩
      -- Only the last one is marked, so that the mark of the shape is found there again.
      rcases List.forall_mem_append.mp ihParams with ⟨ihBefore, ihLast⟩
      have hlast := paramShape_of_marked hmarked (ihLast last List.mem_cons_self)
      have hinputs := List.rel_append (forall₂_paramShape hfixed ihBefore) (.cons hlast .nil)
      have hmarks : (fixed ++ [marked]).any (·.variadic) = true := by
        rw [List.any_append, List.any_cons, hmarked.variadic, Bool.true_or, Bool.or_true]
      rw [shape, Shape.spelledOut, hmarks, paramShapes_eq_of_forall₂ hinputs,
        paramShapes_eq_of_forall₂ (forall₂_paramShape hout ihResults)]

/-- A converted type comes from the shape with the short names of packages written
    out. -/
theorem shape_of_ofShape {d : Shape} {n : TypeExpr} (h : ofShape path d = .ok n) :
    n.shape = d.spelledOut := by
  induction d using Shape.inductOn generalizing n with
  | ofParts d ih =>
      cases d with
      | basic name =>
          rcases (ofShape_basic_eq_ok_iff ..).mp h with ⟨hname, rfl⟩
          exact shapeOfPredeclared_of_isPredeclared hname
      | named package name =>
          cases package with
          | none =>
              obtain rfl := Except.ok.inj h
              -- Of names without a package, the language declares only that of errors.
              by_cases hname : name = "error"
              · rw [if_pos hname, hname]
                rfl
              · rw [if_neg hname]
                rfl
          | some package =>
              obtain rfl := Except.ok.inj h
              rcases package with ⟨path, _ | name⟩ <;> rfl
      | pointer elem =>
          rcases (around_eq_ok_iff pointer _ _).mp h with ⟨type, htype, rfl⟩
          exact congrArg Shape.pointer (ih elem List.mem_cons_self htype)
      | array len elem =>
          rcases (around_eq_ok_iff (array len) _ _).mp h with ⟨type, htype, rfl⟩
          exact congrArg (Shape.array len) (ih elem List.mem_cons_self htype)
      | slice elem =>
          rcases (around_eq_ok_iff slice _ _).mp h with ⟨type, htype, rfl⟩
          exact congrArg Shape.slice (ih elem List.mem_cons_self htype)
      | chan dir elem =>
          rcases (around_eq_ok_iff (channel dir) _ _).mp h with ⟨type, htype, rfl⟩
          exact congrArg (Shape.chan dir) (ih elem List.mem_cons_self htype)
      | map key value =>
          rcases (ofShape_map_eq_ok_iff ..).mp h with ⟨keyType, valueType, hkey, hvalue, rfl⟩
          exact congrArg₂ Shape.map (ih key List.mem_cons_self hkey)
            (ih value (List.mem_cons_of_mem _ List.mem_cons_self) hvalue)
      | func params results variadic =>
          rcases List.forall_mem_append.mp ih with ⟨ihParams, ihResults⟩
          exact shape_of_ofShape_func h (fun p hp _ => List.forall_mem_map.mp ihParams p hp)
            fun p hp _ => List.forall_mem_map.mp ihResults p hp
      | interface methods =>
          rcases (ofShape_interface_eq_ok_iff ..).mp h with ⟨rfl, rfl⟩
          rfl
      | struct fields =>
          rcases (ofShape_struct_eq_ok_iff ..).mp h with ⟨rfl, rfl⟩
          rfl
      | typeParam name => exact absurd h (ofShape_typeParam_ne_ok name _)
      | unsafePointer => exact absurd h (ofShape_unsafePointer_ne_ok _)

/-- Writing out the short name of a package gives the same package. -/
theorem ofDescriptor_spelledOut (package : Descriptor.Package) :
    Package.ofDescriptor package.spelledOut = Package.ofDescriptor package := by
  rcases package with ⟨path, _ | name⟩ <;> rfl

/-- A parameter that is not variadic can be converted with its short names written
    out. -/
theorem FixedFrom.spelledOut {p : Descriptor.Param Shape} {q : Param TypeExpr}
    (h : FixedFrom path p q)
    (ih : ∀ n, ofShape path p.type = .ok n → ofShape other p.type.spelledOut = .ok n) :
    FixedFrom other (Shape.spelledOutParam p) q := by
  rcases p with ⟨name, type⟩
  rw [Shape.spelledOutParam]
  exact ⟨h.name, ih q.type h.type, h.variadic⟩

/-- So can one that is variadic. -/
theorem MarkedFrom.spelledOut {p : Descriptor.Param Shape} {q : Param TypeExpr}
    (h : MarkedFrom path p q)
    (ih : ∀ n, ofShape path p.type = .ok n → ofShape other p.type.spelledOut = .ok n) :
    MarkedFrom other (Shape.spelledOutParam p) q := by
  rcases p with ⟨name, type⟩
  rcases h with ⟨hname, ⟨elem, rfl, helem⟩, hvariadic⟩
  have hwhole : ofShape path (.slice elem) = .ok (.slice q.type) := by
    rw [ofShape, helem]
    rfl
  -- The slice is taken apart again, since what becomes the type of the parameter is its element.
  have hslice := ih _ hwhole
  rw [Shape.spelledOut, ofShape, Except.bind_eq_ok_iff] at hslice
  rcases hslice with ⟨type, htype, heq⟩
  obtain rfl := slice.inj (Except.ok.inj heq)
  rw [Shape.spelledOutParam, Shape.spelledOut]
  exact ⟨hname, ⟨_, rfl, htype⟩, hvariadic⟩

theorem forall₂_fixedFrom_spelledOut {params : List (Descriptor.Param Shape)}
    {inputs : List (Param TypeExpr)} (h : List.Forall₂ (FixedFrom path) params inputs)
    (ih : ∀ p ∈ params, ∀ n, ofShape path p.type = .ok n →
      ofShape other p.type.spelledOut = .ok n) :
    List.Forall₂ (FixedFrom other) (Shape.spelledOutParams params) inputs := by
  rw [Shape.spelledOutParams_eq, List.forall₂_map_left_iff]
  exact ((List.forall₂_and_left _ _).mpr ⟨ih, h⟩).imp fun _ _ ⟨hp, hfixed⟩ =>
    hfixed.spelledOut hp

theorem ofShape_spelledOut_func {params results : List (Descriptor.Param Shape)}
    {variadic : Bool} {n : TypeExpr} (h : ofShape path (.func params results variadic) = .ok n)
    (ihParams : ∀ p ∈ params, ∀ n, ofShape path p.type = .ok n →
      ofShape other p.type.spelledOut = .ok n)
    (ihResults : ∀ p ∈ results, ∀ n, ofShape path p.type = .ok n →
      ofShape other p.type.spelledOut = .ok n) :
    ofShape other (Shape.func params results variadic).spelledOut = .ok n := by
  rw [Shape.spelledOut]
  cases variadic with
  | false =>
      rcases (ofShape_func_false_eq_ok_iff ..).mp h with ⟨inputs, outputs, hin, hout, rfl⟩
      exact (ofShape_func_false_eq_ok_iff ..).mpr ⟨inputs, outputs,
        forall₂_fixedFrom_spelledOut hin ihParams, forall₂_fixedFrom_spelledOut hout ihResults, rfl⟩
  | true =>
      rcases (ofShape_func_true_eq_ok_iff ..).mp h with
        ⟨before, last, fixed, marked, outputs, rfl, hfixed, hmarked, hout, rfl⟩
      rcases List.forall_mem_append.mp ihParams with ⟨ihBefore, ihLast⟩
      -- Writing names out keeps the order, so the last parameter is still the one with the mark.
      refine (ofShape_func_true_eq_ok_iff ..).mpr ⟨Shape.spelledOutParams before,
        Shape.spelledOutParam last, fixed, marked, outputs, ?_,
        forall₂_fixedFrom_spelledOut hfixed ihBefore,
        hmarked.spelledOut (ihLast last List.mem_cons_self),
        forall₂_fixedFrom_spelledOut hout ihResults, rfl⟩
      simp only [Shape.spelledOutParams_eq, List.map_append, List.map_cons, List.map_nil]

/-- A shape can be converted with the short names of its packages written out, and
    becomes the same type. -/
theorem ofShape_spelledOut {d : Shape} {n : TypeExpr} (h : ofShape path d = .ok n) :
    ofShape other d.spelledOut = .ok n := by
  induction d using Shape.inductOn generalizing n with
  | ofParts d ih =>
      cases d with
      | named package name =>
          cases package with
          | none => exact h
          | some package =>
              rw [Shape.spelledOut, Option.map_some, ofShape, ofDescriptor_spelledOut]
              exact h
      | pointer elem =>
          rcases (around_eq_ok_iff pointer _ _).mp h with ⟨type, htype, heq⟩
          exact (around_eq_ok_iff pointer _ _).mpr ⟨type, ih elem List.mem_cons_self htype, heq⟩
      | slice elem =>
          rcases (around_eq_ok_iff slice _ _).mp h with ⟨type, htype, heq⟩
          exact (around_eq_ok_iff slice _ _).mpr ⟨type, ih elem List.mem_cons_self htype, heq⟩
      | array len elem =>
          rcases (around_eq_ok_iff (array len) _ _).mp h with ⟨type, htype, heq⟩
          exact (around_eq_ok_iff (array len) _ _).mpr ⟨type, ih elem List.mem_cons_self htype, heq⟩
      | chan dir elem =>
          rcases (around_eq_ok_iff (channel dir) _ _).mp h with ⟨type, htype, heq⟩
          exact (around_eq_ok_iff (channel dir) _ _).mpr ⟨type, ih elem List.mem_cons_self htype, heq⟩
      | map key value =>
          rcases (ofShape_map_eq_ok_iff ..).mp h with ⟨keyType, valueType, hkey, hvalue, rfl⟩
          exact (ofShape_map_eq_ok_iff ..).mpr ⟨keyType, valueType,
            ih key List.mem_cons_self hkey,
            ih value (List.mem_cons_of_mem _ List.mem_cons_self) hvalue, rfl⟩
      | func params results variadic =>
          rcases List.forall_mem_append.mp ih with ⟨ihParams, ihResults⟩
          exact ofShape_spelledOut_func h
            (fun p hp _ => List.forall_mem_map.mp ihParams p hp)
            fun p hp _ => List.forall_mem_map.mp ihResults p hp
      | basic name => exact (ofShape_basic_eq_ok_iff name n).mpr ((ofShape_basic_eq_ok_iff ..).mp h)
      | interface methods =>
          rcases (ofShape_interface_eq_ok_iff ..).mp h with ⟨rfl, rfl⟩
          rfl
      | struct fields =>
          rcases (ofShape_struct_eq_ok_iff ..).mp h with ⟨rfl, rfl⟩
          rfl
      | typeParam name => exact absurd h (ofShape_typeParam_ne_ok name _)
      | unsafePointer => exact absurd h (ofShape_unsafePointer_ne_ok _)

/-- Two shapes are converted to one type when they are the same with the short names of
    packages written out. -/
theorem ofShape_eq_iff_spelledOut {d e : Shape} {n m : TypeExpr}
    (hd : ofShape path d = .ok n) (he : ofShape other e = .ok m) :
    n = m ↔ d.spelledOut = e.spelledOut := by
  constructor
  · rintro rfl
    -- The type alone says what the shape is with the names written out.
    rw [← shape_of_ofShape hd, ← shape_of_ofShape he]
  · intro heq
    have hn : ofShape path d.spelledOut = .ok n := ofShape_spelledOut hd
    have hm : ofShape path e.spelledOut = .ok m := ofShape_spelledOut he
    exact Except.ok.inj (hn.symm.trans (heq ▸ hm))

/-- A function that takes files by the short name that the path implies, and any number
    of texts. -/
def visit : Shape :=
  .func [⟨some "file", .named (some ⟨"example.com/files", none⟩) "File"⟩,
    ⟨some "marks", .slice (.basic "string")⟩] [⟨none, .named none "error"⟩] true

/-- The same function with the short name written down. -/
def visitSpelled : Shape :=
  .func [⟨some "file", .named (some ⟨"example.com/files", some "files"⟩) "File"⟩,
    ⟨some "marks", .slice (.basic "string")⟩] [⟨none, .named none "error"⟩] true

/-- A function that takes the texts as one argument. -/
def visitAll : Shape :=
  .func [⟨some "file", .named (some ⟨"example.com/files", none⟩) "File"⟩,
    ⟨some "marks", .slice (.basic "string")⟩] [⟨none, .named none "error"⟩] false

theorem ofShape_eq_iff_spelledOut_visit :
    (∃ n, ofShape "Walk.Visit" visit = .ok n ∧ ofShape "Walk.Each" visitSpelled = .ok n) ∧
    ∃ n m, ofShape "Walk.Visit" visit = .ok n ∧ ofShape "Walk.All" visitAll = .ok m ∧ n ≠ m := by
  have hvisit : ∃ n, ofShape "Walk.Visit" visit = .ok n := ⟨_, rfl⟩
  have hspelled : ∃ n, ofShape "Walk.Each" visitSpelled = .ok n := ⟨_, rfl⟩
  have hall : ∃ n, ofShape "Walk.All" visitAll = .ok n := ⟨_, rfl⟩
  rcases hvisit with ⟨n, hn⟩
  rcases hspelled with ⟨m, hm⟩
  rcases hall with ⟨k, hk⟩
  obtain rfl := (ofShape_eq_iff_spelledOut hn hm).mpr rfl
  refine ⟨⟨n, hn, hm⟩, n, k, hn, hk, fun heq => ?_⟩
  exact nomatch (ofShape_eq_iff_spelledOut hn hk).mp heq

end TypeExpr

end Go

end FunctionalOptions
