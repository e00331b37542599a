import FunctionalOptions.Proofs.Names.CaseMapping
import FunctionalOptions.Proofs.Options.FunctionList
import FunctionalOptions.Proofs.Options.RenderSafety

/-!
# Options for Exported Fields

What can go wrong once a record is loaded is that two fields lead to one function,
which takes two names that differ in the case of their first character. When only
exported fields get an option, this cannot be. An exported name begins with a
capital, a capital is its own capital form, and so the function is called like the
field, with the common beginning before it. The names of the fields have been
compared when the record was validated.

A blank field may come any number of times, but the blank name is not exported.

## Theorems

* `Go.title_of_isExported`: Raising an exported name does nothing.
* `Model.functionName_of_mem_selected`: The function for an exported field is called
  like the field.
* `Model.nodup_functionName`: No two exported fields lead to one function.
* `Descriptor.Provider.generate_exported`: With only exported fields asked for, there
  is a file for every record that can be loaded.
-/

namespace FunctionalOptions

/-- Raising the first character of an exported name does nothing. -/
theorem Go.title_of_isExported {name : String} (h : isExported name = true) :
    title name = name := by
  unfold isExported at h
  unfold title
  cases hname : name.toList with
  | nil =>
      rw [hname] at h
      exact absurd h Bool.false_ne_true
  | cons c rest =>
      rw [hname] at h
      -- What counts as a capital has no other capital.
      simp only [Unicode.toUpper_of_isUppercase h, List.singleton_append]
      rw [← hname, String.ofList_toList]

namespace Model

variable {model : Model} (hvisibility : model.settings.visibility = .exportedOnly)
include hvisibility

/-- With only exported fields asked for, the function for a field is called like the
    field, behind the common beginning. -/
theorem functionName_of_mem_selected {field : Record.Field} (h : field ∈ model.selected) :
    model.functionName field = model.settings.functionPrefix ++ field.name := by
  have hexported : field.isExported = true :=
    ((model.mem_selected_iff field).mp h).2.2.2 hvisibility
  rw [functionName, Go.title_of_isExported hexported]

/-- With only exported fields asked for, no two of them lead to one function. -/
theorem nodup_functionName (hdistinct : Record.Distinct model.record.fields) :
    (model.selected.map model.functionName).Nodup := by
  have hselected : Record.Distinct model.selected :=
    List.Pairwise.sublist List.filter_sublist hdistinct
  rw [List.Nodup, List.pairwise_map]
  -- Behind the common beginning the names of the functions are those of the fields.
  refine hselected.imp_of_mem fun {field other} hfield hother hne heq => ?_
  rw [functionName_of_mem_selected hvisibility hfield,
    functionName_of_mem_selected hvisibility hother, String.append_right_inj] at heq
  exact hne ((model.mem_selected_iff field).mp hfield).2.2.1 heq

/-- With only exported fields asked for, there is a file for every valid record. -/
theorem generate_of_valid (hvalid : model.record.validate = .ok ()) :
    ∃ text, model.generate.result = .ok text := by
  have hprints : ∀ field ∈ model.selected, model.Prints field := fun field hfield =>
    Record.render_of_valid hvalid _ ((model.mem_selected_iff field).mp hfield).1
  have hdistinct : Record.Distinct model.record.fields :=
    ((Record.validate_eq_ok_iff _).mp hvalid).2.2
  -- Neither of the two reasons for which a function is refused can come up.
  have hemittable : model.Emittable [] model.selected :=
    (model.emittable_nil_iff _).mpr ⟨nodup_functionName hvisibility hdistinct, hprints⟩
  rcases (model.functionsOf_isOk_iff _ _ _).mpr hemittable with ⟨functions, hfunctions⟩
  refine ⟨model.sourceText functions, ?_⟩
  rw [generate, Logged.result_bind_eq_ok_iff]
  exact ⟨functions, hfunctions, rfl⟩

end Model

namespace Descriptor

namespace Provider

variable {provider : Provider} {name : String} {package : Go.Package}
  {record : FunctionalOptions.Record} {settings : Settings}

/-- A record that is loaded has been validated, wherever it was found. -/
theorem validate_of_load (h : (provider.load name).result = .ok (package, record)) :
    record.validate = .ok () := by
  simp only [load, Logged.result_bind_eq_ok_iff, Logged.result_ofExcept,
    Except.mapError_eq_ok_iff, Logged.result_pure, Except.ok.injEq, Prod.mk.injEq] at h
  rcases h with ⟨_, -, _, -, loaded, -, _, hvalid, -, rfl⟩
  exact hvalid

/-- A run comes to what the model of the loaded record comes to. -/
theorem result_generate (h : (provider.load name).result = .ok (package, record)) :
    (provider.generate name settings).result =
      (Model.of settings package record).generate.result := by
  rw [generate, Logged.result_bind, Logged.result_mapError, h]
  -- What is reported on the way has no part in the result.
  show (Logged.result (_ >>= _)) = _
  rw [Logged.result_bind, Logged.result_debug]
  rfl

/-- When only exported fields get an option, the function for a field is called like
    the field behind the common beginning, no two functions have the same name, and
    there is a file for every record that can be loaded. -/
theorem generate_exported (hload : (provider.load name).result = .ok (package, record))
    (hvisibility : settings.visibility = .exportedOnly) :
    (∀ field ∈ (Model.of settings package record).selected,
      (Model.of settings package record).functionName field =
        settings.functionPrefix ++ field.name) ∧
    ((Model.of settings package record).selected.map
      (Model.of settings package record).functionName).Nodup ∧
    ∃ text, (Model.of settings package record).generate.result = .ok text ∧
      (provider.generate name settings).result = .ok text := by
  have hvalid := validate_of_load hload
  have hexported : (Model.of settings package record).settings.visibility = .exportedOnly :=
    hvisibility
  refine ⟨fun field hfield => ?_, ?_, ?_⟩
  · exact Model.functionName_of_mem_selected hexported hfield
  · exact Model.nodup_functionName hexported ((Record.validate_eq_ok_iff record).mp hvalid).2.2
  · rcases Model.generate_of_valid hexported hvalid with ⟨text, htext⟩
    exact ⟨text, htext, (result_generate hload).trans htext⟩

end Provider

/-- A document with a record that has a field twice but for the case of its first
    character, blank fields, and a capital that is no letter by category. -/
def Document.vault : Document :=
  ⟨⟨"example.com/vault", none⟩, [⟨"Vault", [⟨"door", .basic "int", none⟩,
    ⟨"_", .basic "byte", none⟩, ⟨"Door", .pointer (.basic "int"), none⟩,
    ⟨"_", .basic "byte", none⟩, ⟨"Ⅷ", .slice (.basic "string"), none⟩]⟩]⟩

theorem Provider.generate_exported_vault :
    ∃ package record text,
      (Document.vault.provider.load "Vault").result = .ok (package, record) ∧
      (Model.of { visibility := .exportedOnly } package record).selected.map
          (Model.of { visibility := .exportedOnly } package record).functionName =
        ["WithDoor", "WithⅧ"] ∧
      (Document.vault.provider.generate "Vault" { visibility := .exportedOnly }).result =
        .ok text ∧
      (Document.vault.provider.generate "Vault" {}).result.isOk = false := by
  have hload : (Document.vault.load "Vault").result = .ok (⟨"example.com/vault", "vault"⟩,
      ⟨"Vault", [⟨"door", .predeclared "int", false⟩, ⟨"_", .predeclared "byte", false⟩,
        ⟨"Door", .pointer (.predeclared "int"), false⟩, ⟨"_", .predeclared "byte", false⟩,
        ⟨"Ⅷ", .slice (.predeclared "string"), false⟩]⟩) :=
    (Document.load_eq_ok_iff ..).mpr ⟨by decide, ⟨_, rfl, rfl⟩, by decide +kernel, rfl⟩
  rcases @Provider.generate_exported _ _ _ _ { visibility := .exportedOnly } hload rfl with
    ⟨hnames, -, text, -, htext⟩
  refine ⟨_, _, text, hload, ?_, htext, ?_⟩
  · rw [List.map_congr_left hnames]
    decide +kernel
  · decide +kernel

end Descriptor

end FunctionalOptions
