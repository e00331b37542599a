import FunctionalOptions.Command.Run
import FunctionalOptions.Proofs.Options.RenderSafety

/-!
# The Command and the Library

The command does not use the function of the library that writes an options
file. It takes the same steps one by one, because each of them fails with an
exit status of its own and because a print leaves out the last. So there are two
ways from a descriptor to a file, and they have to stay equal at every step, in
what they do to the files as well as in what they answer.

That the command is the library with its answer restated is shown for every kind
of computation that offers the file operations. On a file tree this means that
both leave the same tree behind.

## Main definitions

* `LibraryError`: Why the library gives no options file, with the exit status
  that stands for it.
* `Arguments.libraryText`, `Arguments.libraryFile`: What the library does for
  the arguments of a command.
* `Failure.ofLibrary`: The failure of a run in which the library fails.
* `Agrees`: The outcome of a command is the one that the library gives rise to.

## Theorems

* `Arguments.generate_eq`: The command generates what the library does.
* `run_eq`: A run is the library with its answer restated.
* `run_agrees`: On a file tree a run has the outcome of the library and leaves
  the tree that the library leaves.
-/

namespace FunctionalOptions

namespace Command

/-- Why the library gives no options file. -/
inductive LibraryError where
  /-- The descriptor cannot be opened. -/
  | opening (error : Descriptor.ReadError)
  | generation (error : GenerationError)

/-- The exit status that stands for an error of the library. What is wrong with
    the text of a descriptor has the same status wherever it is noticed. -/
def LibraryError.status : LibraryError → UInt32
  | opening _ | generation (.descriptor _) => 3
  | generation (.record _) => 4
  | generation (.render _) | generation (.duplicateFunction ..) => 5
  | generation (.output ..) => 6

/-- Success has the status zero. -/
def statusOf (library : Except LibraryError String) : UInt32 :=
  match library with
  | .ok _ => 0
  | .error error => error.status

section Library

variable {m : Type → Type} [Monad m] [Filesystem m]

/-- Open the descriptor that the arguments name and go on with its document. -/
def Arguments.withDocument (arguments : Arguments)
    (next : Descriptor.Document → m (Except GenerationError String)) :
    m (Except LibraryError String) := do
  match ← Descriptor.Document.ofFile arguments.descriptor with
  | .error error => return .error (.opening error)
  | .ok document => return (← next document).mapError .generation

/-- The text that the library generates for the arguments. -/
def Arguments.libraryText (arguments : Arguments) : m (Except LibraryError String) :=
  arguments.withDocument fun document =>
    return (document.generate arguments.type arguments.settings).result

/-- The path of the file that the library writes for the arguments. -/
def Arguments.libraryFile (arguments : Arguments) (current : String) :
    m (Except LibraryError String) :=
  arguments.withDocument fun document =>
    return (← document.generateToFile arguments.type (Path.join current arguments.source)
      arguments.output arguments.settings).result

end Library

/-- The failure of a run in which the library fails. -/
def Failure.ofLibrary (arguments : Arguments) : LibraryError → Failure
  | .opening error | .generation (.descriptor error) => .descriptor arguments.descriptor error
  | .generation (.record error) => .record arguments.type error
  | .generation (.output path error) => .output (.output path error)
  | .generation error => .generation arguments.type error

/-- What the command makes of the library: a generated text is printed, and of a
    written file nothing is. -/
def viaLibrary [Monad m] [Filesystem m] (arguments : Arguments) (current : String) :
    m (Except Failure String) :=
  if arguments.stdout then
    Except.mapError (Failure.ofLibrary arguments) <$> arguments.libraryText
  else
    (fun answer => (answer.mapError (Failure.ofLibrary arguments)).map fun _ => "") <$>
      arguments.libraryFile current

/-- A restated failure keeps the status. -/
theorem Failure.status_ofLibrary (arguments : Arguments) (error : LibraryError) :
    (ofLibrary arguments error).status = error.status := by
  rcases error with _ | _ | _ | _ | _ | _ <;> rfl

/-- The command generates what the library does, and its failure restates that of
    the library. -/
theorem Arguments.generate_eq (arguments : Arguments) (document : Descriptor.Document) :
    arguments.generate document =
      (document.generate arguments.type arguments.settings).result.mapError
        fun error => Failure.ofLibrary arguments (.generation error) := by
  cases hload : (document.load arguments.type).result with
  | error cause =>
      have hlibrary := (document.generate_eq_error_iff arguments.type arguments.settings _).mpr
        (Or.inl ⟨cause, hload, rfl⟩)
      rw [Arguments.generate, hload, hlibrary]
      rfl
  | ok loaded =>
      rcases loaded with ⟨package, record⟩
      have hcommand : arguments.generate document =
          (Model.of arguments.settings package record).generate.result.mapError
            (.generation arguments.type) := by
        rw [Arguments.generate, hload]
        rfl
      have hlibrary : (document.generate arguments.type arguments.settings).result =
          (Model.of arguments.settings package record).generate.result := by
        rw [Descriptor.Document.load] at hload
        simp only [Descriptor.Document.generate, Descriptor.Provider.generate,
          Logged.result_bind, Logged.result_mapError, hload]
        rfl
      rw [hcommand, hlibrary]
      cases hgenerate : (Model.of arguments.settings package record).generate.result with
      | ok text => rfl
      | error error =>
          -- The record is loaded, so two fields with one function are the only
          -- failure left, for which both have the same words.
          rcases document.duplicateFunction_of_load arguments.type arguments.settings hload
            (hlibrary.trans hgenerate) with ⟨function, rfl⟩
          rfl

section Runs

variable {m : Type → Type} [Monad m] [LawfulMonad m] [Filesystem m]

/-- An answer of the library is restated behind the step that gives it. -/
theorem Arguments.map_withDocument (arguments : Arguments)
    (next : Descriptor.Document → m (Except GenerationError String))
    (restate : Except LibraryError String → Except Failure String) :
    restate <$> arguments.withDocument next = (do
      match ← Descriptor.Document.ofFile arguments.descriptor with
      | .error error => return restate (.error (.opening error))
      | .ok document =>
        (fun answer => restate (answer.mapError .generation)) <$> next document) := by
  rw [Arguments.withDocument, map_bind]
  refine bind_congr fun opened => ?_
  cases opened with
  | error error => exact map_pure _ _
  | ok document => simp only [bind_pure_comp, Functor.map_map]

/-- What is written for a document, and what is answered. -/
theorem Arguments.write_eq (arguments : Arguments) (document : Descriptor.Document)
    (directory : String) :
    (do
      match arguments.generate document with
      | .error failure => return .error failure
      | .ok text =>
        let written ← writeOutput (destination arguments.type directory arguments.output) text
        return (written.result.mapError .output).map fun _ => "") =
    (do
      let answer ← document.generateToFile arguments.type directory arguments.output
        arguments.settings
      return ((answer.result.mapError .generation).mapError (Failure.ofLibrary arguments)).map
        fun _ => "" : m (Except Failure String)) := by
  rw [arguments.generate_eq, Descriptor.Document.generateToFile, Descriptor.Provider.generateToFile,
    ← Descriptor.Document.generate]
  cases hresult : (document.generate arguments.type arguments.settings).result with
  | error error =>
      rw [pure_bind]
      rfl
  | ok text =>
      -- Both write the same text to the same place, and differ in what they answer.
      simp only [writeOutput, bind_assoc, Except.mapError]
      refine bind_congr fun written => ?_
      cases written with
      | error error =>
          simp only [pure_bind, Logged.result_bind, Logged.result_fail, hresult]
          rfl
      | ok _ =>
          simp only [pure_bind, Logged.result_bind, Logged.result_report, hresult]
          rfl

/-- A run is the library with its answer restated, once the current directory is
    known. -/
theorem run_eq (arguments : Arguments) :
    (run arguments : m (Except Failure String)) = (do
      match ← Filesystem.currentDirectory with
      | .error error => return .error (.currentDirectory error)
      | .ok current => viaLibrary arguments current) := by
  refine bind_congr fun answer => ?_
  cases answer with
  | error error => rfl
  | ok current =>
      -- The descriptor is opened first either way.
      dsimp only [viaLibrary]
      split
      · rw [Arguments.libraryText, Arguments.map_withDocument]
        refine bind_congr fun opened => ?_
        cases opened with
        | error error => rfl
        | ok document =>
            simp only [Arguments.generate_eq, map_pure]
            cases (document.generate arguments.type arguments.settings).result with
            | error error => rfl
            | ok text => rfl
      · rw [Arguments.libraryFile, Arguments.map_withDocument]
        refine bind_congr fun opened => ?_
        cases opened with
        | error error => rfl
        | ok document =>
            refine (arguments.write_eq document _).trans ?_
            simp only [map_bind, map_pure]

end Runs

/-- The answer of a run is the one that an answer of the library gives rise to:
    both succeed or both fail, the exit status tells why, and what is printed is
    made of the result. -/
structure Agrees (printed : String → String) (library : Except LibraryError String)
    (answer : Except Failure String) : Prop where
  succeeds_iff : (∃ text, answer = .ok text) ↔ ∃ result, library = .ok result
  status_eq : (Outcome.ofResult answer).status = statusOf library
  stdout_eq : (Outcome.ofResult answer).stdout = (library.toOption.map printed).getD ""

/-- An answer that is restated agrees with the one before. -/
theorem agrees_restated (arguments : Arguments) (printed : String → String)
    (library : Except LibraryError String) :
    Agrees printed library ((library.mapError (Failure.ofLibrary arguments)).map printed) := by
  cases library with
  | error error =>
      refine ⟨⟨(fun ⟨_, h⟩ => nomatch h), (fun ⟨_, h⟩ => nomatch h)⟩, ?_, rfl⟩
      exact Failure.status_ofLibrary arguments error
  | ok result => exact ⟨⟨fun _ => ⟨result, rfl⟩, fun _ => ⟨printed result, rfl⟩⟩, rfl, rfl⟩

/-- Reading a descriptor changes no file. -/
theorem looks_ofFile (path : String) :
    OnTree.Looks (Descriptor.Document.ofFile path : OnTree _) := by
  have hread : OnTree.Looks (Filesystem.read path : OnTree _) := fun _ => rfl
  refine .bind (.bind hread fun bytes => ?_) fun text => ?_
  · cases bytes with
    | error error => exact .pure _
    | ok bytes =>
        dsimp only
        split
        · exact .pure _
        · exact .pure _
  · cases text with
    | error error => exact .pure _
    | ok text => exact .pure _

/-- The library changes no file to generate a text. -/
theorem Arguments.looks_libraryText (arguments : Arguments) :
    OnTree.Looks (arguments.libraryText : OnTree _) := by
  refine .bind (looks_ofFile _) fun opened => ?_
  cases opened with
  | error error => exact .pure _
  | ok document => exact .bind (.pure _) fun _ => .pure _

/-- On a file tree a run has the outcome of the library, and the tree it leaves is
    the one that the library leaves. -/
theorem run_agrees (arguments : Arguments) (tree : FileTree) :
    (arguments.stdout = false →
      Agrees (fun _ => "") ((arguments.libraryFile tree.currentPath : OnTree _) tree).1
          ((run arguments : OnTree _) tree).1 ∧
        ((run arguments : OnTree _) tree).2 =
          ((arguments.libraryFile tree.currentPath : OnTree _) tree).2) ∧
    (arguments.stdout = true →
      Agrees id ((arguments.libraryText : OnTree _) tree).1 ((run arguments : OnTree _) tree).1 ∧
        ((run arguments : OnTree _) tree).2 = tree) := by
  -- A file tree always knows its current directory.
  have hrun : (run arguments : OnTree _) tree =
      (viaLibrary arguments tree.currentPath : OnTree _) tree := by
    rw [run_eq]
    rfl
  rw [hrun, viaLibrary]
  constructor
  · intro hwrite
    rw [hwrite, if_neg Bool.false_ne_true]
    exact ⟨agrees_restated _ _ _, rfl⟩
  · intro hprint
    rw [hprint, if_pos rfl]
    refine ⟨?_, arguments.looks_libraryText tree⟩
    have hagrees := agrees_restated arguments id ((arguments.libraryText : OnTree _) tree).1
    rw [Except.map_id] at hagrees
    exact hagrees

/-- A file tree with a descriptor and nothing else. -/
def desk : FileTree :=
  FileTree.put ⟨[], []⟩ ["users.json"] (.file ("\x7b\"package\":\x7b\"path\":\"app/users\"\x7d," ++
    "\"records\":[\x7b\"name\":\"User\"\x7d]\x7d").toUTF8)

/-- Arguments that name a descriptor and a type. -/
def userArguments (descriptor : String) (stdout : Bool) : Arguments :=
  ⟨descriptor, "User", ".", none, stdout, {}⟩

theorem run_agrees_desk :
    (Outcome.ofResult ((run (userArguments "users.json" false) : OnTree _) desk).1).status = 0 ∧
      ((run (userArguments "users.json" false) : OnTree _) desk).2 =
        ((Arguments.libraryFile (userArguments "users.json" false) desk.currentPath :
          OnTree _) desk).2 ∧
      (Outcome.ofResult ((run (userArguments "users.xml" true) : OnTree _) desk).1).status = 3 ∧
      ((run (userArguments "users.xml" true) : OnTree _) desk).2 = desk := by
  rcases (run_agrees (userArguments "users.json" false) desk).1 rfl with ⟨hwrite, hleft⟩
  rcases (run_agrees (userArguments "users.xml" true) desk).2 rfl with ⟨hprint, hsame⟩
  have hwritten : statusOf ((Arguments.libraryFile (userArguments "users.json" false)
      desk.currentPath : OnTree _) desk).1 = 0 := by
    decide +kernel
  have hmissing : statusOf ((Arguments.libraryText (userArguments "users.xml" true) :
      OnTree _) desk).1 = 3 := by
    decide
  exact ⟨hwrite.status_eq.trans hwritten, hleft, hprint.status_eq.trans hmissing, hsame⟩

end Command

end FunctionalOptions
