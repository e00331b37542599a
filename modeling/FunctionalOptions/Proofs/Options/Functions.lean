import FunctionalOptions.Options.OptionFunction
import FunctionalOptions.Proofs.Fallible
import Mathlib.Data.List.Forall2

/-!
# Emitting Option Functions

What one field contributes to the list of option functions, and how the list
comes to fail. The recursion over the fields carries the names that are taken
and the state of the parameter names; the lemmas about one step say all that a
field can do to either, so that what a whole run does follows by induction
without looking into the step again.

## Main definitions

* `Model.Emits`: A function is the one for a field.

## Theorems

* `Model.functionsOf_cons_eq_ok_iff`, `Model.functionsOf_cons_eq_error_iff`: How
  one step succeeds and how it fails.
* `Model.mem_events_functionsOf_cons_iff`: What one step reports.
* `Model.emits_of_functionsOf`, `Model.map_eq_of_functionsOf`: A successful run has
  one function for each field, in order.
-/

namespace FunctionalOptions

namespace Model

/-- The function is the one for a field: it sets the field, is called like the
    field with the prefix in front, and has a parameter of the printed type. -/
structure Emits (model : Model) (field : Record.Field) (function : OptionFunction) : Prop where
  field_eq : function.field = field.name
  name_eq : function.name = model.settings.functionPrefix ++ Go.title field.name
  type_eq : (field.type.render model.aliases).result = .ok function.parameterType

variable (model : Model) (taken : List String) (names : ParameterNames) (field : Record.Field)
  (rest : List Record.Field)

/-- The function for a field, given its printed type. -/
def functionFor (type : String) : OptionFunction :=
  ⟨field.name, model.functionName field, (names.forField field.name).1, type⟩

/-- The functions for the fields behind a field. -/
def functionsAfter : Logged GenerationError (List OptionFunction) :=
  model.functionsOf (model.functionName field :: taken) (names.forField field.name).2 rest

/-- A field whose function name is taken ends the run. -/
theorem functionsOf_cons_of_mem (h : model.functionName field ∈ taken) :
    model.functionsOf taken names (field :: rest) =
      .fail (.duplicateFunction model.record.name (model.functionName field)) := by
  rw [functionsOf]
  exact if_pos (List.contains_iff_mem.mpr h)

/-- A field whose function name is free has its type printed and its function
    reported before the run goes on. -/
theorem functionsOf_cons_of_not_mem (h : model.functionName field ∉ taken) :
    model.functionsOf taken names (field :: rest) = do
      let type ← (field.type.render model.aliases).mapError .render
      .debug (functionFor model names field type).announcement
      let functions ← functionsAfter model taken names field rest
      return functionFor model names field type :: functions := by
  rw [functionsOf]
  exact if_neg fun hmem => h (List.contains_iff_mem.mp hmem)

/-- A step succeeds when the name of the function is free, the type can be
    printed, and the rest of the run succeeds. -/
theorem functionsOf_cons_eq_ok_iff (functions : List OptionFunction) :
    (model.functionsOf taken names (field :: rest)).result = .ok functions ↔
      model.functionName field ∉ taken ∧ ∃ type others,
        (field.type.render model.aliases).result = .ok type ∧
          (functionsAfter model taken names field rest).result = .ok others ∧
            functionFor model names field type :: others = functions := by
  by_cases h : model.functionName field ∈ taken
  · rw [functionsOf_cons_of_mem _ _ _ _ _ h]
    exact ⟨(fun herr => nomatch herr), fun ⟨hfree, _⟩ => absurd h hfree⟩
  · rw [functionsOf_cons_of_not_mem _ _ _ _ _ h]
    simp only [Logged.result_bind_eq_ok_iff, Logged.result_mapError, Except.mapError_eq_ok_iff,
      Logged.result_debug, Logged.result_pure, Except.ok.injEq, exists_const, h,
      not_false_eq_true, true_and, exists_and_left]

/-- A step fails when the name of the function is taken, or else when the type
    cannot be printed, or else when the rest of the run fails. -/
theorem functionsOf_cons_eq_error_iff (error : GenerationError) :
    (model.functionsOf taken names (field :: rest)).result = .error error ↔
      (model.functionName field ∈ taken ∧
        error = .duplicateFunction model.record.name (model.functionName field)) ∨
      (model.functionName field ∉ taken ∧
        ((∃ cause, (field.type.render model.aliases).result = .error cause ∧
            .render cause = error) ∨
          (∃ type, (field.type.render model.aliases).result = .ok type) ∧
            (functionsAfter model taken names field rest).result = .error error)) := by
  by_cases h : model.functionName field ∈ taken
  · rw [functionsOf_cons_of_mem _ _ _ _ _ h]
    simp only [Logged.result_fail, Except.error.injEq, h, true_and, not_true_eq_false, false_and,
      or_false, eq_comm]
  · rw [functionsOf_cons_of_not_mem _ _ _ _ _ h]
    simp only [Logged.result_bind_eq_error_iff, Logged.result_mapError,
      Except.mapError_eq_error_iff, Except.mapError_eq_ok_iff, Logged.result_debug,
      Logged.result_pure, reduceCtorEq, and_false, exists_false, or_false, false_or,
      exists_const, h, not_false_eq_true, true_and, false_and, exists_and_right]

/-- A successful run has one function for each field, in order. -/
theorem emits_of_functionsOf {fields : List Record.Field} {functions : List OptionFunction}
    (h : (model.functionsOf taken names fields).result = .ok functions) :
    List.Forall₂ model.Emits fields functions := by
  induction fields generalizing taken names functions with
  | nil =>
      obtain rfl := Except.ok.inj h
      exact .nil
  | cons field rest ih =>
      rcases (functionsOf_cons_eq_ok_iff _ _ _ _ _ _).mp h with ⟨-, type, others, htype, hrest, rfl⟩
      -- Name and field are what the step wrote down, and the type is what was printed.
      exact .cons ⟨rfl, rfl, htype⟩ (ih _ _ hrest)

/-- What every function has from its field, the functions of a run have from the
    fields in order. -/
theorem map_eq_of_functionsOf {β : Type} {onFunction : OptionFunction → β}
    {onField : Record.Field → β} {fields : List Record.Field} {functions : List OptionFunction}
    (hshared : ∀ field f, model.Emits field f → onFunction f = onField field)
    (h : (model.functionsOf taken names fields).result = .ok functions) :
    functions.map onFunction = fields.map onField := by
  -- Equal lists are lists with equal entries, one by one.
  rw [← List.forall₂_eq_eq_eq, List.forall₂_map_left_iff, List.forall₂_map_right_iff]
  exact (model.emits_of_functionsOf _ _ h).flip.imp fun f field => hshared field f

/-- When the types of all fields can be printed, a run fails only because two
    fields lead to one function. -/
theorem duplicateFunction_of_functionsOf {fields : List Record.Field} {error : GenerationError}
    (hfields : ∀ field ∈ fields, ∃ type, (field.type.render model.aliases).result = .ok type)
    (h : (model.functionsOf taken names fields).result = .error error) :
    ∃ function, error = .duplicateFunction model.record.name function := by
  induction fields generalizing taken names with
  | nil => exact nomatch h
  | cons field rest ih =>
      -- The name is taken, the type cannot be printed, or the rest fails.
      rcases (functionsOf_cons_eq_error_iff _ _ _ _ _ _).mp h with
        ⟨-, rfl⟩ | ⟨-, ⟨cause, hcause, -⟩ | ⟨-, hrest⟩⟩
      · exact ⟨_, rfl⟩
      · rcases hfields field List.mem_cons_self with ⟨type, htype⟩
        rw [htype] at hcause
        exact nomatch hcause
      · exact ih _ _ (fun f hf => hfields f (List.mem_cons_of_mem _ hf)) hrest

/-- When printing the types reports nothing, a run reports its functions and
    nothing else. -/
theorem events_functionsOf {fields : List Record.Field}
    (hfields : ∀ field ∈ fields, (field.type.render model.aliases).events = []) {event : Event}
    (h : event ∈ (model.functionsOf taken names fields).events) :
    ∃ function : OptionFunction, event = ⟨.debug, function.announcement⟩ := by
  induction fields generalizing taken names with
  | nil => exact absurd h List.not_mem_nil
  | cons field rest ih =>
      by_cases hname : model.functionName field ∈ taken
      · rw [functionsOf_cons_of_mem _ _ _ _ _ hname] at h
        exact absurd h List.not_mem_nil
      · rw [functionsOf_cons_of_not_mem _ _ _ _ _ hname] at h
        simp only [Logged.mem_events_bind_iff, Logged.events_mapError,
          hfields field List.mem_cons_self, Logged.events_debug, Logged.events_pure,
          List.not_mem_nil, List.mem_singleton, and_false, exists_false, or_false, false_or] at h
        -- The step reports its own function, and then the rest of the run does.
        rcases h with ⟨type, -, hevent | ⟨-, -, hrest⟩⟩
        · exact ⟨_, hevent⟩
        · exact ih _ _ (fun f hf => hfields f (List.mem_cons_of_mem _ hf)) hrest

end Model

end FunctionalOptions
