import FunctionalOptions.Proofs.Options.FunctionList

/-!
# Declared Names

The names that a generated file declares. At package level these are the option
type and the option functions, in a package that has the record type in it
already. The method that applies options is declared for the record, where it
stands beside the fields.

A run looks at one kind of clash only, that of two functions. The names of the
option type, of the method and at the beginning of every function are chosen from
outside, the others come from the descriptor, and what is chosen is not compared
with what is there. Since all functions begin alike, it takes an option type or a
record with that beginning for one of them to have the name of a function.

## Main definitions

* `Model.packageNames`: The record type and what is declared beside it.
* `Model.memberNames`: What is declared for the record.

## Theorems

* `Model.packageNames_nodup_iff`, `Model.memberNames_nodup_iff`: Where two of these
  names can be the same.
* `Descriptor.Document.generate_declared`: The same for a file that has been
  generated.
* `Descriptor.Document.generate_clashes`: They can be.
-/

namespace FunctionalOptions

namespace Model

variable (model : Model) {functions : List OptionFunction}

/-- The names at package level: the record type, and the option type and the
    functions that are declared beside it. -/
def packageNames (functions : List OptionFunction) : List String :=
  model.record.name :: model.settings.optionName :: functions.map (·.name)

/-- The names that belong to the record: the method that applies options and the
    fields. Any number of fields can be blank, so these do not count. -/
def memberNames : List String :=
  model.settings.applyName :: (model.record.fields.map (·.name)).filter (· ≠ Go.blank)

/-- The functions are called as the selected fields have it. -/
theorem names_of_functions {model : Model} (h : model.functions.result = .ok functions) :
    functions.map (·.name) = model.selected.map model.functionName :=
  model.map_eq_of_functionsOf _ _ (fun _ _ hemit => hemit.name_eq) h

/-- No two functions have the same name. -/
theorem names_nodup {model : Model} (h : model.functions.result = .ok functions) :
    (functions.map (·.name)).Nodup := by
  rw [names_of_functions h]
  exact ((model.functionsOf_isOk_iff _ _ _).mp ⟨_, h⟩).nodup

/-- Names at package level are the same only where the option type is called like
    the record, or a function like one of these two. -/
theorem packageNames_nodup_iff (h : model.functions.result = .ok functions) :
    (model.packageNames functions).Nodup ↔ model.settings.optionName ≠ model.record.name ∧
      ∀ field ∈ model.selected, model.functionName field ≠ model.settings.optionName ∧
        model.functionName field ≠ model.record.name := by
  unfold packageNames
  rw [List.nodup_cons, List.nodup_cons, List.mem_cons, not_or, names_of_functions h]
  -- The run has compared the functions with each other, so what is left is whether
  -- one of the two names in front of them comes again.
  have hnodup := names_of_functions h ▸ names_nodup h
  have hnotMem : ∀ name, name ∉ model.selected.map model.functionName ↔
      ∀ field ∈ model.selected, model.functionName field ≠ name := by
    intro name
    simp only [List.mem_map, not_exists, not_and, ne_eq]
  rw [hnotMem, hnotMem]
  constructor
  · rintro ⟨⟨hoption, hrecord⟩, hoptions, -⟩
    exact ⟨Ne.symm hoption, fun field hfield => ⟨hoptions field hfield, hrecord field hfield⟩⟩
  · rintro ⟨hoption, hfields⟩
    exact ⟨⟨hoption.symm, fun field hfield => (hfields field hfield).2⟩,
      fun field hfield => (hfields field hfield).1, hnodup⟩

/-- A function begins as the settings say. -/
theorem functionPrefix_isPrefix (field : Record.Field) :
    model.settings.functionPrefix.toList <+: (model.functionName field).toList := by
  rw [functionName, String.toList_append]
  exact List.prefix_append _ _

/-- Names at package level are different when neither the record nor the option type
    begins like a function, and the two are not called alike. -/
theorem packageNames_nodup (h : model.functions.result = .ok functions)
    (hoption : model.settings.optionName ≠ model.record.name)
    (hoptionPrefix : ¬model.settings.functionPrefix.toList <+: model.settings.optionName.toList)
    (hrecordPrefix : ¬model.settings.functionPrefix.toList <+: model.record.name.toList) :
    (model.packageNames functions).Nodup := by
  refine (model.packageNames_nodup_iff h).mpr ⟨hoption, fun field _ => ⟨?_, ?_⟩⟩
  · intro heq
    exact hoptionPrefix (heq ▸ model.functionPrefix_isPrefix field)
  · intro heq
    exact hrecordPrefix (heq ▸ model.functionPrefix_isPrefix field)

/-- Members of a record whose fields are distinct are the same only where the method
    is called like a field. -/
theorem memberNames_nodup_iff (hdistinct : Record.Distinct model.record.fields) :
    model.memberNames.Nodup ↔ ∀ field ∈ model.record.fields, field.name ≠ Go.blank →
      field.name ≠ model.settings.applyName := by
  have hnodup : ((model.record.fields.map (·.name)).filter (· ≠ Go.blank)).Nodup := by
    -- Validation lets blank fields alone repeat, and these have been taken out.
    rw [List.Nodup, List.pairwise_filter, List.pairwise_map]
    refine hdistinct.imp fun hne hfirst _ => ?_
    exact hne (of_decide_eq_true hfirst)
  unfold memberNames
  rw [List.nodup_cons, and_iff_left hnodup]
  constructor
  · intro hmem field hfield hblank heq
    exact hmem (List.mem_filter.mpr ⟨heq ▸ List.mem_map_of_mem hfield,
      decide_eq_true (heq ▸ hblank)⟩)
  · intro hfields hmem
    rcases List.mem_filter.mp hmem with ⟨hname, hblank⟩
    rcases List.mem_map.mp hname with ⟨field, hfield, heq⟩
    exact hfields field hfield (heq ▸ of_decide_eq_true hblank) heq

end Model

namespace Descriptor

namespace Document

variable {document : Document} {name text : String} {settings : Settings}

/-- In a file that has been generated no two functions have the same name. At
    package level the option type can have the name of the record and a function
    that of one of these, which it does not if they begin differently. Among the
    members of the record the method can have the name of a field. -/
theorem generate_declared (h : (document.generate name settings).result = .ok text) :
    ∃ package record functions,
      (document.load name).result = .ok (package, record) ∧
      (Model.of settings package record).functions.result = .ok functions ∧
      (Model.of settings package record).sourceText functions = text ∧
      (functions.map (·.name)).Nodup ∧
      (((Model.of settings package record).packageNames functions).Nodup ↔
        settings.optionName ≠ record.name ∧
          ∀ field ∈ (Model.of settings package record).selected,
            (Model.of settings package record).functionName field ≠ settings.optionName ∧
              (Model.of settings package record).functionName field ≠ record.name) ∧
      (settings.optionName ≠ record.name →
        ¬settings.functionPrefix.toList <+: settings.optionName.toList →
        ¬settings.functionPrefix.toList <+: record.name.toList →
        ((Model.of settings package record).packageNames functions).Nodup) ∧
      ((Model.of settings package record).memberNames.Nodup ↔
        ∀ field ∈ record.fields, field.name ≠ "_" → field.name ≠ settings.applyName) := by
  rcases (document.generate_eq_ok_iff name settings text).mp h with
    ⟨package, record, functions, hload, hfunctions, htext⟩
  have hvalid := validate_of_load hload
  have hdistinct : Record.Distinct record.fields :=
    ((Record.validate_eq_ok_iff record).mp hvalid).2.2
  exact ⟨package, record, functions, hload, hfunctions, htext, Model.names_nodup hfunctions,
    Model.packageNames_nodup_iff _ hfunctions, Model.packageNames_nodup _ hfunctions,
    Model.memberNames_nodup_iff _ hdistinct⟩

/-- A document with a record that is called like the option type and has a field that
    is called like the method. -/
def choices : Document :=
  ⟨⟨"example.com/menu", none⟩, [⟨"Option", [⟨"name", .basic "string", none⟩,
    ⟨"with", .basic "bool", none⟩]⟩, ⟨"Menu", [⟨"_", .basic "int", none⟩,
    ⟨"With", .slice (.basic "string"), none⟩]⟩]⟩

theorem generate_declared_choices :
    ∃ text package record functions, (choices.generate "Menu" {}).result = .ok text ∧
      (choices.load "Menu").result = .ok (package, record) ∧
      (Model.of {} package record).functions.result = .ok functions ∧
      ((Model.of {} package record).packageNames functions).Nodup ∧
      (Model.of {} package record).memberNames.Nodup := by
  have hok : (choices.generate "Menu" {}).result.isOk = true := by
    decide +kernel
  rcases Except.exists_of_isOk hok with ⟨text, htext⟩
  rcases generate_declared htext with
    ⟨package, record, functions, hload, hfunctions, -, -, -, hpackage, hmembers⟩
  have hmenu : (choices.load "Menu").result = .ok (⟨"example.com/menu", "menu"⟩, ⟨"Menu",
      [⟨"_", .predeclared "int", false⟩, ⟨"With", .slice (.predeclared "string"), false⟩]⟩) :=
    (load_eq_ok_iff ..).mpr ⟨by decide, ⟨_, rfl, rfl⟩, by decide +kernel, rfl⟩
  obtain ⟨rfl, rfl⟩ := Prod.mk.inj (Except.ok.inj (hmenu.symm.trans hload))
  refine ⟨text, _, _, functions, htext, hload, hfunctions, ?_, ?_⟩
  · exact hpackage (by decide) (by decide) (by decide)
  · exact hmembers.mpr (by decide)

/-- The option type may have the name of the record, and the method that of a field,
    with names that can all be used. -/
theorem generate_clashes :
    ∃ text package record functions, (choices.generate "Option" {}).result = .ok text ∧
      (choices.load "Option").result = .ok (package, record) ∧
      (Model.of {} package record).functions.result = .ok functions ∧
      (∀ used ∈ (Model.of {} package record).packageNames functions ++
        (Model.of {} package record).memberNames, Go.isIdentifier used = true) ∧
      ¬((Model.of {} package record).packageNames functions).Nodup ∧
      ¬(Model.of {} package record).memberNames.Nodup := by
  have hload : (choices.load "Option").result = .ok (⟨"example.com/menu", "menu"⟩, ⟨"Option",
      [⟨"name", .predeclared "string", false⟩, ⟨"with", .predeclared "bool", false⟩]⟩) :=
    (load_eq_ok_iff ..).mpr ⟨by decide, ⟨_, rfl, rfl⟩, by decide, rfl⟩
  refine ⟨_, _, _, _, (generate_eq_ok_iff ..).mpr ⟨_, _, _, hload, rfl, rfl⟩, hload, rfl,
    ?_, ?_, ?_⟩
  · decide
  · decide
  · decide

end Document

end Descriptor

end FunctionalOptions
