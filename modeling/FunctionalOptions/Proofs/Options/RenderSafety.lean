import FunctionalOptions.Options.OutputFile
import FunctionalOptions.Proofs.Options.Generate
import FunctionalOptions.Proofs.Outcome

/-!
# Printing Never Fails

The printer refuses misplaced variadic marks, and so does validation, each by a
recursion of its own. Nothing that has been validated is refused by the
printer, so the failure of a print is an error that no run of the generator
ever comes to: whether the record comes from a document or a text, and whether
the file is returned or written.

What is left of the failures once a record is loaded is one, two fields that
lead to the same function.

## Theorems

* `Record.render_of_valid`: The field types of a valid record can be printed.
* `Descriptor.Document.duplicateFunction_of_load`: Once a record is loaded, a
  run fails only because two of its fields lead to one function.
* `Descriptor.Document.generateToFile_error`: Writing the file adds no failure
  but that of writing.
* `printing_never_fails`: No run fails in the printer, and what the printer
  refuses depends on the type alone.
-/

namespace FunctionalOptions

/-- The marks of a type fit when no parameter before the last of a function
    type is variadic, and no result, at any depth. -/
theorem Go.TypeExpr.wellMarked_iff (n : Go.TypeExpr) :
    n.WellMarked ↔ ∀ inputs outputs, Within (.func inputs outputs) n →
      (∀ p ∈ inputs.dropLast, p.variadic = false) ∧ ∀ p ∈ outputs, p.variadic = false := by
  refine ⟨fun h inputs outputs hwithin => h _ hwithin, fun h t ht => ?_⟩
  -- Only function types have marks.
  cases t with
  | func inputs outputs => exact h inputs outputs ht
  | _ => trivial

/-- The field types of a valid record can be printed, whatever the table of
    aliases. -/
theorem Record.render_of_valid {record : Record} (h : record.validate = .ok ())
    (aliases : Go.AliasTable) {field : Record.Field} (hfield : field ∈ record.fields) :
    ∃ text, (field.type.render aliases).result = .ok text :=
  (Go.TypeExpr.render_isOk_iff aliases field.type).mpr
    (((validate_eq_ok_iff record).mp h).2.1 field hfield).2.wellMarked

/-- Writing a text fails only with an error about the file. -/
theorem writeOutput_error {m : Type → Type} [Monad m] [LawfulMonad m] [Filesystem m]
    (path text : String) :
    Always (fun written => ∀ error, written.result = .error error →
        ∃ cause, error = .output path cause)
      (writeOutput path text : m (Logged GenerationError Unit)) := by
  refine .bind (.anything _) fun answer _ => ?_
  cases answer with
  | error cause => exact .pure fun error h => ⟨cause, (Except.error.inj h).symm⟩
  | ok _ => exact .pure fun error h => nomatch h

namespace Descriptor

namespace Document

variable (document : Document) (name : String) (settings : Settings)

/-- Once a record is loaded, a run fails only because two of its fields lead to
    one function. -/
theorem duplicateFunction_of_load {package : Go.Package} {record : FunctionalOptions.Record}
    (hload : (document.load name).result = .ok (package, record)) {error : GenerationError}
    (h : (document.generate name settings).result = .error error) :
    ∃ function, error = .duplicateFunction record.name function := by
  have hvalid := validate_of_load hload
  rcases (document.generate_eq_error_iff name settings error).mp h with
    ⟨cause, hcause, -⟩ | ⟨package', record', hload', hfunctions⟩
  · rw [hload] at hcause
    exact nomatch hcause
  · -- There is only one record that the name leads to.
    obtain ⟨rfl, rfl⟩ := Prod.mk.inj (Except.ok.inj (hload'.symm.trans hload))
    refine Model.duplicateFunction_of_functionsOf _ _ _ (fun field hfield => ?_) hfunctions
    exact Record.render_of_valid hvalid _ (List.mem_filter.mp hfield).1

/-- No run over a document fails in the printer. -/
theorem generate_ne_render (cause : Go.RenderError) :
    (document.generate name settings).result ≠ .error (.render cause) := by
  intro h
  rcases (document.generate_eq_error_iff name settings _).mp h with
    ⟨_, _, hcause⟩ | ⟨package, record, hload, _⟩
  · exact nomatch hcause
  · rcases document.duplicateFunction_of_load name settings hload h with ⟨_, hfunction⟩
    exact nomatch hfunction

/-- A run that writes the file fails as the run without writing does, or
    because the file cannot be written. -/
theorem generateToFile_error {m : Type → Type} [Monad m] [LawfulMonad m] [Filesystem m]
    (sourceDirectory : String) (path : Option String) :
    Always (fun outcome => ∀ error, outcome.result = .error error →
        (document.generate name settings).result = .error error ∨
          ∃ target cause, error = .output target cause)
      (document.generateToFile name sourceDirectory path settings :
        m (Logged GenerationError String)) := by
  -- The text comes about before any file is touched.
  rw [generateToFile, Provider.generateToFile]
  split
  · next error hsource =>
    exact .pure fun other h => Or.inl (hsource.trans h)
  · next text hsource =>
    refine .bind (writeOutput_error _ text) fun written hwritten => .pure fun error h => Or.inr ?_
    -- Once there is a text, the writing is all that is left to fail.
    rcases (Logged.result_bind_eq_error_iff _ _ _).mp h with h | ⟨_, _, h⟩
    · rw [hsource] at h
      exact nomatch h
    · rcases (Logged.result_bind_eq_error_iff _ _ _).mp h with h | ⟨_, _, h⟩
      · rcases hwritten error h with ⟨cause, rfl⟩
        exact ⟨_, cause, rfl⟩
      · exact nomatch h

/-- No run that writes the file fails in the printer. -/
theorem generateToFile_ne_render {m : Type → Type} [Monad m] [LawfulMonad m] [Filesystem m]
    (sourceDirectory : String) (path : Option String) :
    Always (fun outcome => ∀ cause, outcome.result ≠ .error (.render cause))
      (document.generateToFile name sourceDirectory path settings :
        m (Logged GenerationError String)) := by
  refine (document.generateToFile_error name settings sourceDirectory path).imp ?_
  intro outcome h cause herror
  rcases h _ herror with hsource | ⟨target, _, houtput⟩
  · exact document.generate_ne_render name settings cause hsource
  · exact nomatch houtput

end Document

end Descriptor

/-- No run over a text fails in the printer. -/
theorem generateFromText_ne_render (format : Descriptor.Format) (text name : String)
    (settings : Settings) (cause : Go.RenderError) :
    (generateFromText format text name settings).result ≠ .error (.render cause) := by
  intro h
  -- Reading the text has errors of its own.
  rcases (Logged.result_bind_eq_error_iff _ _ _).mp h with h | ⟨document, -, h⟩
  · rcases (Except.mapError_eq_error_iff _ _ _).mp h with ⟨_, -, h⟩
    exact nomatch h
  · exact document.generate_ne_render name settings cause h

/-- What has been validated can be printed, so no run fails in the printer; once
    a record is loaded the only failure is that of two fields with one
    function. Whether a type can be printed is a matter of its variadic marks
    alone. -/
theorem printing_never_fails :
    (∀ record : Record, record.validate = .ok () → ∀ aliases : Go.AliasTable,
      ∀ field ∈ record.fields, ∃ text, (field.type.render aliases).result = .ok text) ∧
    (∀ (document : Descriptor.Document) name settings cause,
      (document.generate name settings).result ≠ .error (.render cause)) ∧
    (∀ format text name settings cause,
      (generateFromText format text name settings).result ≠ .error (.render cause)) ∧
    (∀ (m : Type → Type) [Monad m] [LawfulMonad m] [Filesystem m]
      (document : Descriptor.Document) name sourceDirectory path settings,
      Always (fun outcome => ∀ cause, outcome.result ≠ .error (.render cause))
        (document.generateToFile name sourceDirectory path settings :
          m (Logged GenerationError String))) ∧
    (∀ (document : Descriptor.Document) name settings package record error,
      (document.load name).result = .ok (package, record) →
      (document.generate name settings).result = .error error →
        ∃ function, error = .duplicateFunction record.name function) ∧
    (∀ (n : Go.TypeExpr) (aliases : Go.AliasTable),
      (∃ text, (n.render aliases).result = .ok text) ↔
        ∀ inputs outputs, Go.TypeExpr.Within (.func inputs outputs) n →
          (∀ p ∈ inputs.dropLast, p.variadic = false) ∧ ∀ p ∈ outputs, p.variadic = false) := by
  refine ⟨fun record h aliases field hfield => Record.render_of_valid h aliases hfield,
    fun document => document.generate_ne_render, generateFromText_ne_render, ?_, ?_, ?_⟩
  · intro m _ _ _ document name sourceDirectory path settings
    exact document.generateToFile_ne_render name settings sourceDirectory path
  · intro document name settings package record error hload h
    exact document.duplicateFunction_of_load name settings hload h
  · intro n aliases
    rw [Go.TypeExpr.render_isOk_iff, Go.TypeExpr.wellMarked_iff]

/-- A document of one record with two fields that lead to one function. -/
def Descriptor.Document.hub : Document :=
  ⟨⟨"example.com/hub", none⟩,
    [⟨"Hub", [⟨"in", .basic "int", none⟩, ⟨"In", .basic "int", none⟩]⟩]⟩

theorem printing_never_fails_hub :
    (∃ text, ((Go.TypeExpr.channel .recv
      (.func [⟨none, .predeclared "int", true⟩] [])).render .empty).result = .ok text) ∧
    ∃ record function, (Descriptor.Document.hub.generate "Hub" {}).result =
      .error (.duplicateFunction record function) := by
  constructor
  · have hvalid : (⟨"Hub", [⟨"All", .channel .recv
        (.func [⟨none, .predeclared "int", true⟩] []), false⟩]⟩ : Record).validate = .ok () := by
      decide
    exact printing_never_fails.1 _ hvalid .empty _ List.mem_cons_self
  · have hload : (Descriptor.Document.hub.load "Hub").result.isOk = true := by
      decide
    have hfails : (Descriptor.Document.hub.generate "Hub" {}).result.isOk = false := by
      decide
    rcases Except.exists_of_isOk hload with ⟨⟨package, record⟩, hload⟩
    rcases Except.exists_of_not_isOk hfails with ⟨error, herror⟩
    rcases printing_never_fails.2.2.2.2.1 _ _ _ _ _ _ hload herror with ⟨function, rfl⟩
    exact ⟨record.name, function, herror⟩

end FunctionalOptions
