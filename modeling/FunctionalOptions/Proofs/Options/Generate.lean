import FunctionalOptions.Options.Generate
import FunctionalOptions.Proofs.Options.Functions
import FunctionalOptions.Proofs.Types.Valid

/-!
# Runs of the Generator

How a run over a document succeeds, how it fails, and what it reports. A run
loads a record, gives aliases to the packages of the record, and emits the
functions; the alias table cannot fail, so success is success of the other two
and failure is the failure of one of them.

What is loaded has been validated. Whoever knows that a file came about
therefore knows that the record behind it is valid.

## Theorems

* `Descriptor.Document.load_eq_ok_iff`: When a record can be loaded.
* `Descriptor.Document.generate_eq_ok_iff`,
  `Descriptor.Document.generate_eq_error_iff`: How a run succeeds and how it
  fails.
* `Descriptor.Document.mem_events_generate_iff`: What a successful run reports.
-/

namespace FunctionalOptions

/-- The model of a record does not depend on whether aliases are reported. -/
theorem Model.result_resolve {ε : Type} (settings : Settings) (package : Go.Package)
    (record : Record) :
    (Model.resolve settings package record : Logged ε Model).result =
      .ok (Model.of settings package record) :=
  rfl

/-- The model of a record reports what its alias table does. -/
theorem Model.events_resolve {ε : Type} (settings : Settings) (package : Go.Package)
    (record : Record) :
    (Model.resolve settings package record : Logged ε Model).events =
      (Go.AliasTable.resolve package record.packages : Logged ε Go.AliasTable).events := by
  rw [Model.resolve, Logged.events_bind]
  exact List.append_nil _

/-- Reading the descriptor of a field reports the unknown options of its
    tag. -/
theorem Record.Field.mem_events_ofDescriptor {record : String} {field : Descriptor.Field}
    {event : Event} (h : event ∈ (Record.Field.ofDescriptor record field).events) :
    ∃ option, event = Go.StructTag.unknownOption option := by
  rw [Record.Field.ofDescriptor, Logged.mem_events_bind_iff] at h
  -- The conversion of the type reports nothing, so the tag is what is left.
  rcases h with h | ⟨type, -, h⟩
  · exact absurd h List.not_mem_nil
  · cases htag : field.tag with
    | none =>
        rw [htag] at h
        exact absurd h List.not_mem_nil
    | some tag =>
        simp only [htag, Logged.mem_events_bind_iff, Logged.events_pure, List.not_mem_nil,
          and_false, exists_false, or_false] at h
        rcases List.mem_map.mp h with ⟨option, -, rfl⟩
        exact ⟨option, rfl⟩

/-- Reading the descriptors of fields reports the unknown options of their
    tags. -/
theorem Record.mem_events_fieldsOfDescriptor {record : String} {fields : List Descriptor.Field}
    {event : Event} (h : event ∈ (fieldsOfDescriptor record fields).events) :
    ∃ option, event = Go.StructTag.unknownOption option := by
  induction fields with
  | nil => exact absurd h List.not_mem_nil
  | cons field rest ih =>
      simp only [fieldsOfDescriptor, Logged.mem_events_bind_iff, Logged.events_pure,
        List.not_mem_nil, and_false, exists_false, or_false] at h
      rcases h with h | ⟨-, -, h⟩
      · exact Field.mem_events_ofDescriptor h
      · exact ih h

namespace Descriptor

namespace Document

variable (document : Document) (name : String) (settings : Settings)

/-- A record is loaded when the package of its document has a usable name, and
    the descriptor of the record stands for a valid record. -/
theorem load_eq_ok_iff (package : Go.Package) (record : FunctionalOptions.Record) :
    (document.load name).result = .ok (package, record) ↔
      Go.isIdentifier document.origin.name = true ∧
        (∃ descriptor, document.find name = .ok descriptor ∧
          (FunctionalOptions.Record.ofDescriptor descriptor).result = .ok record) ∧
        record.validate = .ok () ∧ document.origin = package := by
  rw [load, Provider.load, ← Go.Package.validate_eq_ok_iff]
  simp only [provider, Logged.result_bind_eq_ok_iff, Logged.result_ofExcept,
    Except.mapError_eq_ok_iff, Logged.result_pure, Except.ok.injEq, Prod.mk.injEq]
  constructor
  · rintro ⟨_, hname, descriptor, hfind, loaded, hloaded, _, hvalid, rfl, rfl⟩
    exact ⟨hname, ⟨descriptor, hfind, hloaded⟩, hvalid, rfl⟩
  · rintro ⟨hname, ⟨descriptor, hfind, hloaded⟩, hvalid, rfl⟩
    exact ⟨(), hname, descriptor, hfind, record, hloaded, (), hvalid, rfl, rfl⟩

variable {document name} in
/-- A record that is loaded has been validated. -/
theorem validate_of_load {package : Go.Package} {record : FunctionalOptions.Record}
    (h : (document.load name).result = .ok (package, record)) : record.validate = .ok () :=
  ((document.load_eq_ok_iff name package record).mp h).2.2.1

/-- A run succeeds when a record can be loaded and its functions emitted. -/
theorem generate_eq_ok_iff (text : String) :
    (document.generate name settings).result = .ok text ↔
      ∃ package record functions, (document.load name).result = .ok (package, record) ∧
        (Model.of settings package record).functions.result = .ok functions ∧
          (Model.of settings package record).sourceText functions = text := by
  rw [generate, Provider.generate, load]
  simp only [Logged.result_bind_eq_ok_iff, Logged.result_mapError, Except.mapError_eq_ok_iff,
    Logged.result_debug, Model.result_resolve, Except.ok.injEq, exists_eq_left', Model.generate,
    Logged.result_pure, exists_const, Prod.exists, true_and, exists_and_left]

/-- A run fails when no record can be loaded or its functions cannot be
    emitted. -/
theorem generate_eq_error_iff (error : GenerationError) :
    (document.generate name settings).result = .error error ↔
      (∃ cause, (document.load name).result = .error cause ∧ .record cause = error) ∨
        ∃ package record, (document.load name).result = .ok (package, record) ∧
          (Model.of settings package record).functions.result = .error error := by
  rw [generate, Provider.generate, load]
  simp only [Logged.result_bind_eq_error_iff, Logged.result_mapError, Except.mapError_eq_ok_iff,
    Except.mapError_eq_error_iff, Logged.result_debug, Model.result_resolve, Except.ok.injEq,
    exists_eq_left', Model.generate, Logged.result_pure, exists_const, Prod.exists, true_and,
    reduceCtorEq, false_or, or_false, and_false]

/-- Loading a record reports the unknown options of its tags and nothing
    else. -/
theorem mem_events_load {event : Event} (h : event ∈ (document.load name).events) :
    ∃ option, event = Go.StructTag.unknownOption option := by
  rw [load, Provider.load] at h
  simp only [provider, Logged.mem_events_bind_iff, Logged.events_ofExcept, Logged.events_pure,
    List.not_mem_nil, and_false, exists_false, or_false, false_or,
    FunctionalOptions.Record.ofDescriptor] at h
  -- The validations on the way are silent.
  rcases h with ⟨-, -, descriptor, -, h⟩
  exact FunctionalOptions.Record.mem_events_fieldsOfDescriptor h

/-- A run reports what loading the record does, then that it is loaded, its
    aliases, and its functions. -/
theorem mem_events_generate_iff (event : Event) :
    event ∈ (document.generate name settings).events ↔
      event ∈ (document.load name).events ∨
        ∃ package record, (document.load name).result = .ok (package, record) ∧
          (event = ⟨.debug, loadedRecord package record⟩ ∨
            event ∈ (Go.AliasTable.resolve package record.packages :
              Logged GenerationError Go.AliasTable).events ∨
            event ∈ (Model.of settings package record).functions.events ∨
            ∃ functions, (Model.of settings package record).functions.result = .ok functions ∧
              event = ⟨.debug, "generated " ++ toString functions.length ++
                " option functions for " ++ record.name⟩) := by
  rw [generate, Provider.generate, load]
  simp only [Logged.mem_events_bind_iff, Logged.events_mapError, Logged.result_mapError,
    Except.mapError_eq_ok_iff, Logged.events_debug, Logged.result_debug, List.mem_singleton,
    Model.result_resolve, Model.events_resolve, Except.ok.injEq, exists_eq_left', Model.generate,
    Logged.events_pure, List.not_mem_nil, exists_const, and_false, or_false, Prod.exists, true_and]
  rfl

end Document

end Descriptor

end FunctionalOptions
