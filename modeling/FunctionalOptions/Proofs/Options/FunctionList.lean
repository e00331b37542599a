import FunctionalOptions.Proofs.Imports.Exactness

/-!
# The List of Option Functions

Which functions a model leads to, told without the run that emits them. The run
goes through the fields once, and carries the names that are taken and the
state of the parameter names from one field to the next. Neither is needed to
say what comes out of it: there is a function for every selected field as long
as no two of them lead to one name and each has a type that can be printed, and
otherwise the first field that breaks one of the two rules is the one that the
error tells of.

A field may break both rules. The name is looked at first, so a type that
cannot be printed is never reported for a field whose function exists already.

## Main definitions

* `Model.Prints`: The type of a field can be printed.
* `Model.Emittable`: A run over some fields succeeds, given the names that are
  taken.
* `Model.Refuses`: A run stops at a field, given the names that are taken.

## Theorems

* `Model.functionsOf_isOk_iff`, `Model.functionsOf_eq_error_iff`: When a run
  succeeds, and where it stops.
* `Model.functions_exact`: The functions of a model are those of its selected
  fields, and its error is that of the first field that is refused.
-/

namespace FunctionalOptions

namespace Model

/-- The type of the field can be printed. -/
def Prints (model : Model) (field : Record.Field) : Prop :=
  ∃ type, (field.type.render model.aliases).result = .ok type

/-- The fields lead to functions of different names, none of which is taken, and
    their types can be printed. -/
structure Emittable (model : Model) (taken : List String) (fields : List Record.Field) :
    Prop where
  nodup : (fields.map model.functionName).Nodup
  free : ∀ field ∈ fields, model.functionName field ∉ taken
  prints : ∀ field ∈ fields, model.Prints field

/-- The field is refused by a run that has taken some names: its function has one
    of them, or else its type cannot be printed. -/
inductive Refuses (model : Model) (taken : List String) (field : Record.Field) :
    GenerationError → Prop where
  | repeated : model.settings.functionPrefix ++ Go.title field.name ∈ taken →
    Refuses model taken field (.duplicateFunction model.record.name
      (model.settings.functionPrefix ++ Go.title field.name))
  | unprintable {cause : Go.RenderError} :
    model.settings.functionPrefix ++ Go.title field.name ∉ taken →
    (field.type.render model.aliases).result = .error cause →
    Refuses model taken field (.render cause)

variable (model : Model)

theorem emittable_nil (taken : List String) : model.Emittable taken [] :=
  ⟨List.nodup_nil, fun _ h => absurd h List.not_mem_nil, fun _ h => absurd h List.not_mem_nil⟩

/-- A field and those behind it can be emitted when the field can be, and the
    others can be once its name is taken too. -/
theorem emittable_cons_iff (taken : List String) (field : Record.Field)
    (rest : List Record.Field) :
    model.Emittable taken (field :: rest) ↔
      model.functionName field ∉ taken ∧ model.Prints field ∧
        model.Emittable (model.functionName field :: taken) rest := by
  constructor
  · rintro ⟨hnodup, hfree, hprints⟩
    rcases List.nodup_cons.mp hnodup with ⟨hnew, hrest⟩
    rcases List.forall_mem_cons.mp hfree with ⟨hfield, hfree⟩
    rcases List.forall_mem_cons.mp hprints with ⟨hprint, hprints⟩
    refine ⟨hfield, hprint, hrest, fun other hother hmem => ?_, hprints⟩
    -- A later field has neither the name of this one nor one that was taken before.
    rcases List.mem_cons.mp hmem with heq | hmem
    · exact hnew (heq ▸ List.mem_map_of_mem hother)
    · exact hfree other hother hmem
  · rintro ⟨hfield, hprint, hrest, hfree, hprints⟩
    refine ⟨List.nodup_cons.mpr ⟨fun hmem => ?_, hrest⟩, List.forall_mem_cons.mpr ⟨hfield, ?_⟩,
      List.forall_mem_cons.mpr ⟨hprint, hprints⟩⟩
    · rcases List.mem_map.mp hmem with ⟨other, hother, heq⟩
      exact hfree other hother (heq ▸ List.mem_cons_self)
    · exact fun other hother hmem => hfree other hother (List.mem_cons_of_mem _ hmem)

/-- Only which names are taken matters to a field, not their order. -/
theorem Refuses.congr {model : Model} {taken others : List String} {field : Record.Field}
    {error : GenerationError} (h : ∀ name, name ∈ taken ↔ name ∈ others)
    (hrefuses : model.Refuses taken field error) : model.Refuses others field error := by
  cases hrefuses with
  | repeated hmem => exact .repeated ((h _).mp hmem)
  | unprintable hmem hcause => exact .unprintable (fun hother => hmem ((h _).mpr hother)) hcause

/-- A run succeeds when its fields can be emitted. -/
theorem functionsOf_isOk_iff (taken : List String) (names : ParameterNames)
    (fields : List Record.Field) :
    (∃ functions, (model.functionsOf taken names fields).result = .ok functions) ↔
      model.Emittable taken fields := by
  induction fields generalizing taken names with
  | nil => exact ⟨fun _ => model.emittable_nil taken, fun _ => ⟨[], rfl⟩⟩
  | cons field rest ih =>
      -- Both sides take one field off and its name in.
      rw [emittable_cons_iff, ← ih _ (names.forField field.name).2]
      simp only [functionsOf_cons_eq_ok_iff]
      constructor
      · rintro ⟨-, hfree, type, others, htype, hothers, -⟩
        exact ⟨hfree, ⟨type, htype⟩, others, hothers⟩
      · rintro ⟨hfree, ⟨type, htype⟩, others, hothers⟩
        exact ⟨_, hfree, type, others, htype, hothers, rfl⟩

/-- A run stops at a field that is refused, behind fields that can be
    emitted. -/
theorem functionsOf_eq_error_iff (taken : List String) (names : ParameterNames)
    (fields : List Record.Field) (error : GenerationError) :
    (model.functionsOf taken names fields).result = .error error ↔
      ∃ before field after, fields = before ++ field :: after ∧ model.Emittable taken before ∧
        model.Refuses (before.map model.functionName ++ taken) field error := by
  induction fields generalizing taken names with
  | nil =>
      refine ⟨(fun h => nomatch h), ?_⟩
      rintro ⟨before, field, after, hsplit, -⟩
      exact absurd hsplit.symm (List.append_ne_nil_of_right_ne_nil _ (List.cons_ne_nil _ _))
  | cons field rest ih =>
      -- The name of this field is taken when the rest of the run begins, so it
      -- moves from one side of the append to the other.
      have hmoved : ∀ (before : List Record.Field) (name : String),
          name ∈ before.map model.functionName ++ model.functionName field :: taken ↔
            name ∈ (field :: before).map model.functionName ++ taken := by
        intro before name
        simp only [List.map_cons, List.cons_append, List.mem_append, List.mem_cons]
        exact or_left_comm
      rw [functionsOf_cons_eq_error_iff, functionsAfter, ih]
      constructor
      · rintro (⟨hmem, rfl⟩ | ⟨hfree, ⟨cause, hcause, rfl⟩ | ⟨hprint, before, other, after, rfl,
          hbefore, hrefuses⟩⟩)
        · exact ⟨[], field, rest, rfl, model.emittable_nil taken, .repeated hmem⟩
        · exact ⟨[], field, rest, rfl, model.emittable_nil taken, .unprintable hfree hcause⟩
        · exact ⟨field :: before, other, after, rfl,
            (model.emittable_cons_iff _ _ _).mpr ⟨hfree, hprint, hbefore⟩,
            hrefuses.congr (hmoved before)⟩
      · rintro ⟨before, other, after, hsplit, hbefore, hrefuses⟩
        cases before with
        | nil =>
            obtain ⟨rfl, rfl⟩ := List.cons.inj hsplit
            cases hrefuses with
            | repeated hmem => exact Or.inl ⟨hmem, rfl⟩
            | unprintable hfree hcause => exact Or.inr ⟨hfree, Or.inl ⟨_, hcause, rfl⟩⟩
        | cons first before =>
            obtain ⟨rfl, rfl⟩ := List.cons.inj hsplit
            rcases (model.emittable_cons_iff _ _ _).mp hbefore with ⟨hfree, hprint, hbefore⟩
            exact Or.inr ⟨hfree, Or.inr ⟨hprint, before, other, after, rfl, hbefore,
              hrefuses.congr fun name => (hmoved before name).symm⟩⟩

/-- The selected fields are those that are not passed over, can be assigned to,
    and are visible as far as the settings ask, in the order of their
    declaration. -/
theorem selected_eq_filter :
    model.selected = model.record.fields.filter fun field =>
      decide (field.ignored = false ∧ field.name ≠ "_" ∧
        (model.settings.visibility = .exportedOnly → field.isExported = true)) := by
  refine List.filter_congr fun field _ => Bool.eq_iff_iff.mpr ?_
  rw [decide_eq_true_iff, selects]
  cases model.settings.visibility <;>
    simp [Go.blank, and_assoc]

/-- With nothing taken, fields can be emitted when their functions have
    different names and their types can be printed. -/
theorem emittable_nil_iff (fields : List Record.Field) :
    model.Emittable [] fields ↔
      (fields.map model.functionName).Nodup ∧ ∀ field ∈ fields, model.Prints field :=
  ⟨fun h => ⟨h.nodup, h.prints⟩, fun h => ⟨h.1, fun _ _ => List.not_mem_nil, h.2⟩⟩

/-- A model has one function for each selected field, in the order of the
    fields, if the functions have different names and the types can be printed.
    If not, the error is that of the first field that is refused. -/
theorem functions_exact :
    model.selected = model.record.fields.filter (fun field =>
      decide (field.ignored = false ∧ field.name ≠ "_" ∧
        (model.settings.visibility = .exportedOnly → field.isExported = true))) ∧
    ((∃ functions, model.functions.result = .ok functions) ↔
      (model.selected.map fun field =>
          model.settings.functionPrefix ++ Go.title field.name).Nodup ∧
        ∀ field ∈ model.selected, model.Prints field) ∧
    (∀ functions, model.functions.result = .ok functions →
      List.Forall₂ model.Emits model.selected functions) ∧
    (∀ error, model.functions.result = .error error ↔
      ∃ before field after, model.selected = before ++ field :: after ∧
        (before.map fun field => model.settings.functionPrefix ++ Go.title field.name).Nodup ∧
        (∀ f ∈ before, model.Prints f) ∧
          model.Refuses (before.map fun field =>
            model.settings.functionPrefix ++ Go.title field.name) field error) := by
  -- The names are those of the recursion, written out.
  have hnames : model.functionName = fun field =>
      model.settings.functionPrefix ++ Go.title field.name := rfl
  rw [← hnames]
  refine ⟨model.selected_eq_filter, ?_, fun _ => model.emits_of_functionsOf _ _, fun error => ?_⟩
  · rw [← emittable_nil_iff]
    exact model.functionsOf_isOk_iff _ _ _
  · -- Nothing is taken before the first field.
    simp only [functions, functionsOf_eq_error_iff, emittable_nil_iff, List.append_nil, and_assoc]

/-- A model with a field of each kind that gets no function. -/
def ledger : Model :=
  .of { visibility := .exportedOnly } ⟨"example.com/ledger", "ledger"⟩ ⟨"Ledger",
    [⟨"_", .predeclared "int", false⟩, ⟨"Total", .pointer (.predeclared "int"), false⟩,
      ⟨"Secret", .predeclared "string", true⟩, ⟨"total", .predeclared "int", false⟩]⟩

/-- A model in which one field has a type that cannot be printed, and a field
    behind it leads to the function of one before it. -/
def misprint : Model :=
  .of {} ⟨"example.com/ledger", "ledger"⟩ ⟨"Ledger",
    [⟨"total", .predeclared "int", false⟩,
      ⟨"Sum", .func [] [⟨none, .predeclared "int", true⟩], false⟩,
      ⟨"Total", .predeclared "int", false⟩]⟩

theorem functions_exact_ledger :
    (∃ functions, ledger.functions.result = .ok functions ∧
      functions.map OptionFunction.name = ["WithTotal"] ∧
      List.Forall₂ ledger.Emits ledger.selected functions) ∧
    misprint.functions.result = .error (.render (.variadicResult 0)) ∧
      ∃ before field after, misprint.selected = before ++ field :: after ∧
        (before.map fun field => misprint.settings.functionPrefix ++ Go.title field.name).Nodup ∧
        (∀ f ∈ before, misprint.Prints f) ∧
          misprint.Refuses (before.map fun field =>
            misprint.settings.functionPrefix ++ Go.title field.name) field
              (.render (.variadicResult 0)) := by
  have hnames : ledger.functions.result.toOption.map (·.map OptionFunction.name) =
      some ["WithTotal"] := by
    decide +kernel
  have hmisprint : misprint.functions.result = .error (.render (.variadicResult 0)) := by
    rfl
  refine ⟨?_, hmisprint, (misprint.functions_exact.2.2.2 _).mp hmisprint⟩
  cases hfunctions : ledger.functions.result with
  | error error =>
      rw [hfunctions] at hnames
      cases hnames
  | ok functions =>
      rw [hfunctions] at hnames
      exact ⟨functions, rfl, Option.some.inj hnames, ledger.functions_exact.2.2.1 _ hfunctions⟩

end Model

end FunctionalOptions
