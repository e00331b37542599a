import FunctionalOptions.Proofs.Names.Identifiers

/-!
# Names in Scope

What the names in the generated code stand for. A name stands for the innermost
declaration of it, and the declarations of a function are not made in one place:
the parameter is declared for the whole body, the receiver for the closure inside
it, and the record type is declared outside of everything. The closure says what
type its receiver has, so it mentions the record type where a parameter of the
same name hides it.

The method that applies options declares its receiver and its parameter together,
and a variable for the loop inside.

The receiver is reserved before the first parameter is named. The name of the
record is not, and a record may be called like the parameter of one of its own
fields. It has to begin with a small letter for that, or with a character that has
no small form, since every parameter does.

A blank receiver is another matter. It is hidden by nothing, but it cannot be
mentioned at all.

## Main definitions

* `Declaration`, `Scope`: What names are declared as, innermost first.
* `OptionFunction.ReadsAsMeant`: The names in an option function stand for what
  they are meant for.
* `ApplyReadsAsMeant`: The same for the method that applies options.

## Theorems

* `OptionFunction.readsAsMeant_iff`, `applyReadsAsMeant_iff`: This comes down to
  different names.
* `Descriptor.Document.names_asMeant`: A parameter never hides the receiver, and
  hides the record type only if that is called like a parameter.
* `Descriptor.Document.names_notAsMeant`: This can be.
-/

namespace FunctionalOptions

/-- What a name in the generated code may be declared as. -/
inductive Declaration where
  | recordType
  | parameter
  | receiver
  /-- The options that are to be applied. -/
  | options
  /-- One of them. -/
  | option
deriving DecidableEq, Repr

/-- The names that are declared at a place, innermost first. A name stands for the
    first declaration of it. -/
abbrev Scope := List (String × Declaration)

namespace OptionFunction

variable (function : OptionFunction) (receiver record : String)

/-- What is declared in the body of an option function. -/
def bodyScope : Scope :=
  [(function.parameter, .parameter), (record, .recordType)]

/-- What is declared in the closure that an option function returns. -/
def closureScope : Scope :=
  (receiver, .receiver) :: function.bodyScope record

/-- Every name that is mentioned in an option function stands for what it is meant
    for: the record type where the closure is declared, the receiver and the
    parameter where the field is set. -/
structure ReadsAsMeant : Prop where
  recordType_eq : (function.bodyScope record).lookup record = some .recordType
  receiver_eq : (function.closureScope receiver record).lookup receiver = some .receiver
  parameter_eq :
    (function.closureScope receiver record).lookup function.parameter = some .parameter

/-- The names stand for what they are meant for when the parameter is called
    neither like the record type nor like the receiver. -/
theorem readsAsMeant_iff :
    function.ReadsAsMeant receiver record ↔
      function.parameter ≠ record ∧ function.parameter ≠ receiver := by
  constructor
  · -- The parameter hides the record, and the receiver hides the parameter, so a
    -- common name stands for the inner one.
    rintro ⟨hrecord, -, hparameter⟩
    refine ⟨fun heq => ?_, fun heq => ?_⟩
    · rw [bodyScope, heq, List.lookup_cons_self] at hrecord
      exact nomatch hrecord
    · rw [closureScope, heq, List.lookup_cons_self] at hparameter
      exact nomatch hparameter
  · rintro ⟨hrecord, hreceiver⟩
    have hrecord : (record == function.parameter) = false := by
      simpa using hrecord.symm
    have hreceiver : (function.parameter == receiver) = false := by
      simpa using hreceiver
    refine ⟨?_, ?_, ?_⟩
    · rw [bodyScope, List.lookup_cons, hrecord]
      exact List.lookup_cons_self
    · rw [closureScope, List.lookup_cons_self]
    · rw [closureScope, List.lookup_cons, hreceiver]
      exact List.lookup_cons_self

end OptionFunction

/-- What is declared in the method that applies options. -/
def methodScope (receiver : String) : Scope :=
  [(receiver, .receiver), ("options", .options)]

/-- What is declared in its loop. -/
def loopScope (receiver : String) : Scope :=
  ("option", .option) :: methodScope receiver

/-- Every name that is mentioned in the method that applies options stands for what
    it is meant for: the options that the loop goes through, the option that it
    applies and the receiver that it is applied to, and the receiver that is
    returned. -/
structure ApplyReadsAsMeant (receiver : String) : Prop where
  options_eq : (methodScope receiver).lookup "options" = some .options
  option_eq : (loopScope receiver).lookup "option" = some .option
  applied_eq : (loopScope receiver).lookup receiver = some .receiver
  returned_eq : (methodScope receiver).lookup receiver = some .receiver

/-- The names stand for what they are meant for when the receiver is called
    neither like the options nor like one of them. -/
theorem applyReadsAsMeant_iff (receiver : String) :
    ApplyReadsAsMeant receiver ↔ receiver ≠ "options" ∧ receiver ≠ "option" := by
  constructor
  · -- The receiver comes first in the method, and the option in the loop.
    rintro ⟨hoptions, -, happlied, -⟩
    refine ⟨fun heq => ?_, fun heq => ?_⟩
    · rw [methodScope, heq, List.lookup_cons_self] at hoptions
      exact nomatch hoptions
    · rw [loopScope, heq, List.lookup_cons_self] at happlied
      exact nomatch happlied
  · rintro ⟨hoptions, hoption⟩
    have hoptions : ("options" == receiver) = false := by
      simpa using hoptions.symm
    have hoption : (receiver == "option") = false := by
      simpa using hoption
    refine ⟨?_, List.lookup_cons_self, ?_, List.lookup_cons_self⟩
    · rw [methodScope, List.lookup_cons, hoptions]
      exact List.lookup_cons_self
    · rw [loopScope, List.lookup_cons, hoption]
      exact List.lookup_cons_self

namespace Model

variable {model : Model} {functions : List OptionFunction}

/-- The receiver of a model is too short to be called like the options. -/
theorem applyReadsAsMeant (model : Model) : ApplyReadsAsMeant model.receiver := by
  have hlength := model.length_receiver_le
  refine (applyReadsAsMeant_iff _).mpr ⟨?_, ?_⟩
  · intro heq
    rw [heq] at hlength
    exact absurd hlength (by decide)
  · intro heq
    rw [heq] at hlength
    exact absurd hlength (by decide)

/-- No parameter is called like the receiver. -/
theorem parameter_ne_receiver (h : model.functions.result = .ok functions) :
    ∀ f ∈ functions, f.parameter ≠ model.receiver :=
  fun f hf heq => parameter_not_reserved h f hf (Or.inr (Or.inr (Or.inr heq)))

/-- A parameter for a field with a proper name is its own lowered form. -/
theorem lowerFirst_parameter (h : model.functions.result = .ok functions) {f : OptionFunction}
    (hf : f ∈ functions) (hfield : Go.isIdentifier f.field = true) :
    Go.lowerFirst f.parameter = f.parameter := by
  rcases exists_parameter_append h hf with ⟨more, -, hparameter⟩
  rw [hparameter]
  exact Go.lowerFirst_lowerFirst_append more hfield

end Model

namespace Descriptor

namespace Document

variable {document : Document} {name : String} {package : Go.Package}
  {record : FunctionalOptions.Record}

/-- In the functions of a record that has been loaded, and in the method that
    applies them, the names stand for what they are meant for, with one exception: a
    parameter that is called like the record hides its type. The record is its own
    lowered form then. -/
theorem names_asMeant (hload : (document.load name).result = .ok (package, record))
    (settings : Settings) :
    ApplyReadsAsMeant (Model.of settings package record).receiver ∧
    ∀ functions, (Model.of settings package record).functions.result = .ok functions →
      ∀ f ∈ functions, f.parameter ≠ (Model.of settings package record).receiver ∧
        (f.ReadsAsMeant (Model.of settings package record).receiver record.name ↔
          f.parameter ≠ record.name) ∧
        (Go.lowerFirst record.name ≠ record.name →
          f.ReadsAsMeant (Model.of settings package record).receiver record.name) := by
  refine ⟨Model.applyReadsAsMeant _, fun functions h f hf => ?_⟩
  have hreceiver := Model.parameter_ne_receiver h f hf
  have hiff : f.ReadsAsMeant (Model.of settings package record).receiver record.name ↔
      f.parameter ≠ record.name := by
    rw [OptionFunction.readsAsMeant_iff]
    exact ⟨fun hboth => hboth.1, fun hrecord => ⟨hrecord, hreceiver⟩⟩
  -- A parameter is its own lowered form, so a record that is not has another name.
  refine ⟨hreceiver, hiff, fun hraised => hiff.mpr fun heq => hraised ?_⟩
  rw [← heq]
  exact Model.lowerFirst_parameter h hf (isIdentifier_field hload h hf).1

/-- A document with two records. One is called like one of its own fields, the
    other like the lowered name of its field, but for the capital letter. -/
def clients : Document :=
  ⟨⟨"example.com/net", none⟩, [⟨"client", [⟨"client", .basic "string", none⟩]⟩,
    ⟨"Server", [⟨"server", .basic "string", none⟩]⟩]⟩

theorem names_asMeant_clients :
    ∃ package record, (clients.load "Server").result = .ok (package, record) ∧
      Go.lowerFirst record.name ≠ record.name ∧
      ApplyReadsAsMeant (Model.of {} package record).receiver ∧
      ∃ functions, (Model.of {} package record).functions.result = .ok functions ∧
        functions.map (·.parameter) = ["server"] ∧
        ∀ f ∈ functions, f.parameter ≠ (Model.of {} package record).receiver ∧
          f.ReadsAsMeant (Model.of {} package record).receiver record.name := by
  have hload : (clients.load "Server").result = .ok (⟨"example.com/net", "net"⟩,
      ⟨"Server", [⟨"server", .predeclared "string", false⟩]⟩) :=
    (load_eq_ok_iff ..).mpr ⟨by decide, ⟨_, rfl, rfl⟩, by decide, rfl⟩
  have hraised : Go.lowerFirst "Server" ≠ "Server" := by
    decide
  rcases names_asMeant hload {} with ⟨happly, hfunctions⟩
  refine ⟨_, _, hload, hraised, happly, _, rfl, by decide, fun f hf => ?_⟩
  rcases hfunctions _ rfl f hf with ⟨hreceiver, -, hmeant⟩
  exact ⟨hreceiver, hmeant hraised⟩

/-- A parameter may be called like the record, and hides its type then. -/
theorem names_notAsMeant :
    ∃ package record functions, (clients.load "client").result = .ok (package, record) ∧
      (Model.of {} package record).functions.result = .ok functions ∧
      ∃ f ∈ functions, f.parameter = record.name ∧
        ¬f.ReadsAsMeant (Model.of {} package record).receiver record.name := by
  have hload : (clients.load "client").result = .ok (⟨"example.com/net", "net"⟩,
      ⟨"client", [⟨"client", .predeclared "string", false⟩]⟩) :=
    (load_eq_ok_iff ..).mpr ⟨by decide, ⟨_, rfl, rfl⟩, by decide, rfl⟩
  have hhides : Go.lowerFirst "client" = "client" := by
    decide
  refine ⟨_, _, _, hload, rfl, _, List.mem_cons_self, hhides, fun hmeant => ?_⟩
  exact (OptionFunction.readsAsMeant_iff _ _ _).mp hmeant |>.1 hhides

end Document

end Descriptor

end FunctionalOptions
