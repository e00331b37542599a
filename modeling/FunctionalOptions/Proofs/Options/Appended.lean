import FunctionalOptions.Proofs.Options.Functions

/-!
# Fields at the End

What becomes of the options of a record when fields are added to it. Functions are
emitted in one pass, and what the pass carries along, the names that are taken and
the state of the parameter names, depends on the fields that have gone by and on no
later ones. So the functions that there were keep their names and the names of their
parameters, and the new ones come behind them.

Their parameter types may change, though. A new field may refer to a package under
another short name, and then the alias of the package changes for all fields.

## Main definitions

* `OptionFunction.names`: All of a function but the type of its parameter.
* `Model.namesOf`: What a run over some fields calls things.
* `Model.append`: A model whose record has more fields.

## Theorems

* `Model.map_names_of_functionsOf`: The names in a run depend on its fields alone.
* `Model.namesOf_prefix`: What a run calls things does not depend on later fields.
* `Model.names_prefix_append`: The names of a model come first among those of the
  model with more fields.
-/

namespace FunctionalOptions

/-- The field that a function sets, the name of the function and the name of its
    parameter. -/
def OptionFunction.names (function : OptionFunction) : String × String × String :=
  (function.field, function.name, function.parameter)

/-- Fields that are added one by one stand at the end. -/
theorem Record.foldl_add (record : Record) (extra : List Field) :
    extra.foldl add record = { record with fields := record.fields ++ extra } := by
  induction extra generalizing record with
  | nil => rw [List.foldl_nil, List.append_nil]
  | cons field rest ih =>
      rw [List.foldl_cons, ih]
      simp only [add, List.append_assoc, List.singleton_append]

namespace Model

/-- What a run over some fields calls the fields, their functions and the parameters,
    given the parameter names in use. -/
def namesOf (model : Model) (names : ParameterNames) :
    List Record.Field → List (String × String × String)
  | [] => []
  | field :: rest =>
    (field.name, model.functionName field, (names.forField field.name).1) ::
      namesOf model (names.forField field.name).2 rest

variable {model : Model} {taken : List String} {names : ParameterNames}
  {functions : List OptionFunction}

/-- The names in a run that succeeds are those that its fields lead to, whichever
    names are taken before it. -/
theorem map_names_of_functionsOf {fields : List Record.Field}
    (h : (model.functionsOf taken names fields).result = .ok functions) :
    functions.map OptionFunction.names = model.namesOf names fields := by
  induction fields generalizing taken names functions with
  | nil =>
      obtain rfl := Except.ok.inj h
      rfl
  | cons field rest ih =>
      rcases (functionsOf_cons_eq_ok_iff _ _ _ _ _ _).mp h with ⟨-, type, others, -, hrest, rfl⟩
      rw [List.map_cons, namesOf, ih hrest]
      rfl

/-- What a run calls things does not depend on fields that come later. -/
theorem namesOf_prefix (model : Model) (names : ParameterNames)
    (fields more : List Record.Field) :
    model.namesOf names fields <+: model.namesOf names (fields ++ more) := by
  induction fields generalizing names with
  | nil => exact List.nil_prefix
  | cons field rest ih => exact (List.prefix_cons_inj _).mpr (ih _)

/-- The model whose record has more fields, with the aliases that come with them. -/
def append (model : Model) (extra : List Record.Field) (aliases : Go.AliasTable) : Model :=
  { model with record := extra.foldl Record.add model.record, aliases }

/-- Whether a field is selected depends on the settings alone, so the new fields that
    are selected come behind the others. -/
theorem selected_append (model : Model) (extra : List Record.Field) (aliases : Go.AliasTable) :
    (model.append extra aliases).selected = model.selected ++ extra.filter model.selects := by
  unfold selected append
  rw [Record.foldl_add, List.filter_append]
  rfl

/-- The receiver is named after the record, which keeps its name. -/
theorem receiver_append (model : Model) (extra : List Record.Field) (aliases : Go.AliasTable) :
    (model.append extra aliases).receiver = model.receiver := by
  unfold receiver append
  rw [Record.foldl_add]

/-- Neither the fields of the record nor the aliases matter to what a run over given
    fields calls things. -/
theorem namesOf_append (model : Model) (extra : List Record.Field) (aliases : Go.AliasTable)
    (names : ParameterNames) (fields : List Record.Field) :
    (model.append extra aliases).namesOf names fields = model.namesOf names fields := by
  induction fields generalizing names with
  | nil => rfl
  | cons field rest ih => exact congrArg (List.cons _) (ih _)

/-- When fields are appended to the record of a model, and functions can be emitted
    before and after, then those that there were come first, with the names that they
    had. -/
theorem names_prefix_append (extra : List Record.Field) (aliases : Go.AliasTable)
    {extended : List OptionFunction} (h : model.functions.result = .ok functions)
    (hextended : (model.append extra aliases).functions.result = .ok extended) :
    functions.map OptionFunction.names <+: extended.map OptionFunction.names := by
  rw [map_names_of_functionsOf h, map_names_of_functionsOf hextended, namesOf_append,
    selected_append, receiver_append]
  exact model.namesOf_prefix _ _ _

/-- A model with a field that is passed over and two that are called like a keyword and
    the receiver. -/
def quilt : Model :=
  .of {} ⟨"example.com/quilt", "quilt"⟩ ⟨"Quilt",
    [⟨"Range", .predeclared "int", false⟩, ⟨"size", .predeclared "int", true⟩,
      ⟨"q", .named (some ⟨"example.com/cloth", "cloth"⟩) "Square", false⟩]⟩

/-- Fields of which one is blank, one is called like a field that is passed over, and
    one refers to a package under another short name. -/
def patches : List Record.Field :=
  [⟨"_", .predeclared "int", false⟩, ⟨"Size", .predeclared "int", false⟩,
    ⟨"Type", .named (some ⟨"example.com/cloth", "fabric"⟩) "Square", false⟩]

/-- The aliases of the model with the patches in it. -/
def patched : Go.AliasTable :=
  .ofPackages quilt.package (patches.foldl Record.add quilt.record).packages

theorem names_prefix_append_quilt :
    ∃ functions extended, quilt.functions.result = .ok functions ∧
      (quilt.append patches patched).functions.result = .ok extended ∧
      extended.map OptionFunction.names = [("Range", "WithRange", "range0"),
        ("q", "WithQ", "q1"), ("Size", "WithSize", "size"), ("Type", "WithType", "type2")] ∧
      functions.map OptionFunction.names <+: extended.map OptionFunction.names := by
  have hquilt : quilt.functions.result.isOk = true := by
    decide
  have hextended : (quilt.append patches patched).functions.result.isOk = true := by
    decide
  rcases Except.exists_of_isOk hquilt with ⟨functions, hfunctions⟩
  rcases Except.exists_of_isOk hextended with ⟨extended, hextended⟩
  refine ⟨functions, extended, hfunctions, hextended, ?_,
    names_prefix_append _ _ hfunctions hextended⟩
  rw [map_names_of_functionsOf hextended]
  decide

end Model

end FunctionalOptions
