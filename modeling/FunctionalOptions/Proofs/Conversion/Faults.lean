import FunctionalOptions.Proofs.Conversion.Inversion
import FunctionalOptions.Proofs.Descriptor.Written

/-!
# What Fails a Conversion

A shape that cannot be converted may have any number of parts that have no type, and
the error names one of them. Which one depends on the order in which the parts are
looked at. That order is written down here as a list, so that the error is about the
first entry of the list with which something is wrong.

The list has the parts in the order in which they would be read aloud, with one
exception. What can be wrong with a function itself is its last parameter, so the
function is listed where that parameter comes up and after the other parameters.

Whether something is wrong with a part does not depend on what the part is made of,
so it can be said for each kind of shape by itself.

## Main definitions

* `Shape.Within`: A shape is a part of another at some depth.
* `Shape.fault?`: What is wrong with a shape by itself.
* `Shape.reading`: The parts of a shape in the order in which they are looked at.
* `Reports`: A computation fails with a given fault or, without one, succeeds.

## Theorems

* `Shape.mem_reading_iff`: The parts of a shape at any depth are those looked at.
* `TypeExpr.ofShape_eq_error_iff`: A conversion fails with what is wrong with the first
  part with which something is wrong.
* `TypeExpr.exists_ofShape_eq_ok_iff`: It succeeds if nothing is wrong with any part.
-/

namespace FunctionalOptions

namespace Descriptor

namespace Shape

/-- A shape is a part of another at some depth, or is the other. -/
inductive Within (s : Shape) : Shape → Prop where
  | self : Within s s
  | part {shape part : Shape} : part ∈ shape.parts → Within s part → Within s shape

/-- What is wrong with a variadic parameter of a type, its parts aside. -/
def lastFault? : Shape → Option Unsupported
  | .slice _ => none
  | type => some (.variadicWithoutSlice type)

/-- What is wrong with a shape, its parts aside. -/
def fault? : Shape → Option Unsupported
  | .basic name => if Go.isPredeclared name then none else some (.shape (.basic name))
  | .interface methods => if methods.isEmpty then none else some (.shape (.interface methods))
  | .struct fields => if fields.isEmpty then none else some (.shape (.struct fields))
  | .typeParam name => some (.shape (.typeParam name))
  | .unsafePointer => some (.shape .unsafePointer)
  | .func params _ true =>
    match params.getLast? with
    | none => some .variadicWithoutParameters
    | some last => last.type.lastFault?
  | _ => none

mutual

/-- A shape and its parts in the order in which they are looked at, from the outside
    in and from left to right. A function is looked at when its last parameter comes
    up, which is the one that a variadic mark is about. -/
def reading : Shape → List Shape
  | .pointer elem => .pointer elem :: elem.reading
  | .array len elem => .array len elem :: elem.reading
  | .slice elem => .slice elem :: elem.reading
  | .chan dir elem => .chan dir elem :: elem.reading
  | .map key value => .map key value :: (key.reading ++ value.reading)
  | .func params results variadic =>
    readingParams (.func params results variadic) params ++ readingResults results
  | shape => [shape]

/-- The parameters of a function, with the function in front of the last. -/
def readingParams (function : Shape) : List (Param Shape) → List Shape
  | [] => [function]
  | [p] => function :: readingParam p
  | p :: q :: rest => readingParam p ++ readingParams function (q :: rest)

/-- The results of a function. -/
def readingResults : List (Param Shape) → List Shape
  | [] => []
  | p :: rest => readingParam p ++ readingResults rest

/-- A parameter or result. -/
def readingParam : Param Shape → List Shape
  | ⟨_, type⟩ => type.reading

end

attribute [local simp] parts reading readingParams readingResults readingParam

/-- What is wrong with the first part of a shape with which something is wrong. -/
def firstFault? (shape : Shape) : Option Unsupported :=
  shape.reading.findSome? fault?

theorem readingParam_eq (p : Param Shape) : readingParam p = p.type.reading := by
  cases p
  rw [readingParam]

theorem readingResults_eq (results : List (Param Shape)) :
    readingResults results = results.flatMap (·.type.reading) := by
  induction results with
  | nil => rw [readingResults, List.flatMap_nil]
  | cons p rest ih => rw [readingResults, readingParam_eq, ih, List.flatMap_cons]

/-- A function is looked at between its last parameter and the others. -/
theorem readingParams_concat (function : Shape) (before : List (Param Shape)) (last : Param Shape) :
    readingParams function (before ++ [last]) =
      before.flatMap (·.type.reading) ++ function :: last.type.reading := by
  induction before with
  | nil => rw [List.nil_append, readingParams, readingParam_eq, List.flatMap_nil, List.nil_append]
  | cons p rest ih =>
      rw [List.flatMap_cons, List.append_assoc, ← ih, ← readingParam_eq]
      -- The recursion looks one parameter ahead to know the last one.
      cases rest with
      | nil => simp only [List.cons_append, List.nil_append, readingParams]
      | cons q rest => simp only [List.cons_append, readingParams]

theorem reading_func_concat (before : List (Param Shape)) (last : Param Shape)
    (results : List (Param Shape)) (variadic : Bool) :
    (func (before ++ [last]) results variadic).reading = before.flatMap (·.type.reading) ++
      func (before ++ [last]) results variadic ::
        (last.type.reading ++ results.flatMap (·.type.reading)) := by
  rw [reading, readingParams_concat, readingResults_eq, List.append_assoc, List.cons_append]

/-- What is looked at is the shape and what is looked at in its parts. -/
theorem mem_reading_iff_parts {s shape : Shape} :
    s ∈ shape.reading ↔ s = shape ∨ ∃ part ∈ shape.parts, s ∈ part.reading := by
  cases shape with
  | func params results variadic =>
      -- Only a function may stand behind some of its parts in the list.
      rcases List.eq_nil_or_concat' params with rfl | ⟨before, last, rfl⟩
      · rw [reading, readingParams, readingResults_eq]
        simp [parts]
      · rw [reading_func_concat]
        simp [parts, or_and_right, exists_or, or_left_comm]
  | _ => simp [reading, parts]

/-- The parts of a shape at any depth are those that are looked at. -/
theorem mem_reading_iff {s shape : Shape} : s ∈ shape.reading ↔ Within s shape := by
  constructor
  · induction shape using inductOn with
    | ofParts shape ih =>
        intro h
        rcases mem_reading_iff_parts.mp h with rfl | ⟨part, hpart, h⟩
        · exact .self
        · exact .part hpart (ih part hpart h)
  · intro h
    induction h with
    | self => exact mem_reading_iff_parts.mpr (Or.inl rfl)
    | part hpart _ ih => exact mem_reading_iff_parts.mpr (Or.inr ⟨_, hpart, ih⟩)

end Shape

end Descriptor

/-- A computation gives a result if nothing is wrong, and otherwise fails with what is
    wrong, at the given path. -/
def Reports {α : Type} (path : String) (x : Except RecordError α) : Option Unsupported → Prop
  | none => ∃ a, x = .ok a
  | some fault => x = .error (.unsupported path fault)

namespace Reports

variable {α β : Type} {path : String} {x : Except RecordError α}
variable {fault other : Option Unsupported}

/-- What is wrong in a sequence is what is wrong in its first step, or else in its
    second one. -/
theorem bind {f : α → Except RecordError β} (hx : Reports path x fault)
    (hf : ∀ a, x = .ok a → Reports path (f a) other) :
    Reports path (x >>= f) (fault.or other) := by
  cases fault with
  | none =>
      rcases hx with ⟨a, rfl⟩
      exact hf a rfl
  | some fault =>
      rw [show x = _ from hx]
      rfl

/-- Nothing more is wrong once a result has been put into another. -/
theorem map_iff (f : α → β) :
    Reports path (x >>= fun a => pure (f a)) fault ↔ Reports path x fault := by
  cases x <;> cases fault <;> simp [Reports, Bind.bind, Except.bind, pure, Except.pure]

theorem isOk_iff (h : Reports path x fault) : (∃ a, x = .ok a) ↔ fault = none := by
  cases fault with
  | none => exact iff_of_true h rfl
  | some fault =>
      rw [show x = _ from h]
      simp

theorem eq_error_iff (h : Reports path x fault) (error : RecordError) :
    x = .error error ↔ ∃ found, fault = some found ∧ error = .unsupported path found := by
  cases fault with
  | none =>
      rcases h with ⟨a, rfl⟩
      simp
  | some fault =>
      rw [show x = _ from h]
      simp [eq_comm]

end Reports

namespace Go

namespace TypeExpr

open Descriptor (Shape)

variable {path : String}

theorem reports_paramOf {p : Descriptor.Param Shape}
    (h : Reports path (ofShape path p.type) p.type.firstFault?) :
    Reports path (paramOf path p) p.type.firstFault? := by
  rw [paramOf_eq]
  exact (Reports.map_iff _).mpr h

/-- Parameters of which none is variadic report the first thing wrong in their types. -/
theorem reports_inputsOf {params : List (Descriptor.Param Shape)}
    (h : ∀ p ∈ params, Reports path (ofShape path p.type) p.type.firstFault?) :
    Reports path (inputsOf path false params)
      ((params.flatMap (·.type.reading)).findSome? Shape.fault?) := by
  induction params with
  | nil =>
      rw [inputsOf]
      exact ⟨[], rfl⟩
  | cons p rest ih =>
      rcases List.forall_mem_cons.mp h with ⟨hp, hrest⟩
      rw [inputsOf_false_cons, List.flatMap_cons, List.findSome?_append]
      refine (reports_paramOf hp).bind fun _ _ => ?_
      exact (Reports.map_iff _).mpr (ih hrest)

/-- The last parameter of a variadic function reports that it is no slice, or else what
    is wrong with the elements. -/
theorem reports_lastOf {p : Descriptor.Param Shape}
    (h : Reports path (ofShape path p.type) p.type.firstFault?)
    (before results : List (Descriptor.Param Shape)) :
    Reports path (lastOf path p)
      ((Shape.func (before ++ [p]) results true :: p.type.reading).findSome? Shape.fault?) := by
  rcases p with ⟨name, type⟩
  have hfunction : Shape.fault? (.func (before ++ [⟨name, type⟩]) results true) =
      type.lastFault? := by
    rw [Shape.fault?, List.getLast?_concat]
  rw [List.findSome?_cons, hfunction]
  cases type with
  | slice elem =>
      rw [lastOf]
      refine (Reports.map_iff _).mpr ?_
      rw [ofShape] at h
      exact (Reports.map_iff slice).mp h
  | _ => rfl

/-- The last parameter of a function, with the function in front of it. -/
theorem reports_endOf {p : Descriptor.Param Shape}
    (h : Reports path (ofShape path p.type) p.type.firstFault?) (variadic : Bool)
    (before results : List (Descriptor.Param Shape)) :
    Reports path (endOf path variadic p)
      ((Shape.func (before ++ [p]) results variadic :: p.type.reading).findSome? Shape.fault?) := by
  cases variadic with
  | true => exact reports_lastOf h before results
  | false => exact reports_paramOf h

/-- A function reports what is wrong with a parameter, with its last one being variadic
    or with a result. -/
theorem reports_func {params results : List (Descriptor.Param Shape)} (variadic : Bool)
    (hparams : ∀ p ∈ params, Reports path (ofShape path p.type) p.type.firstFault?)
    (hresults : ∀ p ∈ results, Reports path (ofShape path p.type) p.type.firstFault?) :
    Reports path (ofShape path (.func params results variadic))
      (Shape.func params results variadic).firstFault? := by
  have houtputs := reports_inputsOf hresults
  rw [ofShape, Shape.firstFault?]
  rcases List.eq_nil_or_concat' params with rfl | ⟨before, last, rfl⟩
  · rw [Shape.reading, Shape.readingParams, Shape.readingResults_eq]
    cases variadic with
    | true => rfl
    | false => exact (Reports.map_iff _).mpr houtputs
  · rcases List.forall_mem_append.mp hparams with ⟨hbefore, hlast⟩
    have hend := reports_endOf (hlast last List.mem_cons_self) variadic before results
    have hinputs := (reports_inputsOf hbefore).bind fun fixed _ =>
      (Reports.map_iff fun last => fixed ++ [last]).mpr hend
    -- The list has three parts: the other parameters, the function with the last one
    -- behind it, and the results.
    have hsome : (variadic && (before ++ [last]).isEmpty) = false := by simp
    rw [hsome, if_neg Bool.false_ne_true, inputsOf_concat, Shape.reading_func_concat,
      ← List.cons_append, List.findSome?_append, List.findSome?_append, ← Option.or_assoc]
    exact hinputs.bind fun _ _ => (Reports.map_iff _).mpr houtputs

/-- A conversion fails with what is wrong with the first part of the shape with which
    something is wrong. -/
theorem reports_ofShape (path : String) (shape : Shape) :
    Reports path (ofShape path shape) shape.firstFault? := by
  induction shape using Shape.inductOn with
  | ofParts shape ih =>
      cases shape with
      | basic name =>
          have hreading : (Shape.basic name).firstFault? = (Shape.basic name).fault? :=
            List.findSome?_singleton
          rw [hreading, ofShape, Shape.fault?]
          by_cases h : isPredeclared name = true
          · rw [if_pos h, if_pos h]
            exact ⟨_, rfl⟩
          · rw [if_neg h, if_neg h]
            rfl
      | named package name =>
          cases package with
          | none => exact ⟨_, rfl⟩
          | some package => exact ⟨_, rfl⟩
      | pointer elem => exact (Reports.map_iff _).mpr (ih elem List.mem_cons_self)
      | array len elem => exact (Reports.map_iff _).mpr (ih elem List.mem_cons_self)
      | slice elem => exact (Reports.map_iff _).mpr (ih elem List.mem_cons_self)
      | chan dir elem => exact (Reports.map_iff _).mpr (ih elem List.mem_cons_self)
      | map key value =>
          have hkey := ih key List.mem_cons_self
          have hvalue := ih value (List.mem_cons_of_mem _ List.mem_cons_self)
          have hparts : (Shape.map key value).firstFault? =
              key.firstFault?.or value.firstFault? :=
            List.findSome?_append
          rw [hparts, ofShape]
          exact hkey.bind fun _ _ => (Reports.map_iff _).mpr hvalue
      | func params results variadic =>
          rcases List.forall_mem_append.mp ih with ⟨hparams, hresults⟩
          exact reports_func variadic (List.forall_mem_map.mp hparams)
            (List.forall_mem_map.mp hresults)
      | interface methods =>
          cases methods with
          | nil => exact ⟨_, rfl⟩
          | cons method others => rfl
      | struct fields =>
          cases fields with
          | nil => exact ⟨_, rfl⟩
          | cons field others => rfl
      | typeParam name => rfl
      | unsafePointer => rfl

theorem ofShape_eq_error_iff (path : String) (shape : Shape) (error : RecordError) :
    ofShape path shape = .error error ↔
      ∃ before s after fault, shape.reading = before ++ s :: after ∧
        (∀ t ∈ before, t.fault? = none) ∧ s.fault? = some fault ∧
        error = .unsupported path fault := by
  rw [(reports_ofShape path shape).eq_error_iff]
  simp only [Shape.firstFault?, List.findSome?_eq_some_iff]
  constructor
  · rintro ⟨fault, ⟨before, s, after, hsplit, hs, hbefore⟩, herror⟩
    exact ⟨before, s, after, fault, hsplit, hbefore, hs, herror⟩
  · rintro ⟨before, s, after, fault, hsplit, hbefore, hs, herror⟩
    exact ⟨fault, ⟨before, s, after, hsplit, hs, hbefore⟩, herror⟩

theorem exists_ofShape_eq_ok_iff (path : String) (shape : Shape) :
    (∃ n, ofShape path shape = .ok n) ↔ ∀ s, Shape.Within s shape → s.fault? = none := by
  rw [(reports_ofShape path shape).isOk_iff, Shape.firstFault?, List.findSome?_eq_none_iff]
  simp only [Shape.mem_reading_iff]

end TypeExpr

end Go

end FunctionalOptions
