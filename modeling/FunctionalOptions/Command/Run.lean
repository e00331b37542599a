import FunctionalOptions.Command.Arguments
import FunctionalOptions.Descriptor.File
import FunctionalOptions.Options.OutputFile

/-!
# Runs

What the command does, for every kind of computation that offers the file
operations. A run reads the descriptor, finds the record, generates the file,
and prints or writes it. Each of these steps fails with an exit status of its
own, so that a script can tell a bad descriptor from a disk that is full.

Generation and writing are done one after the other here, and not in one go,
because their failures have different statuses and because printing leaves out
the second.

## Main definitions

* `Failure`: Why a run fails, with its exit status and its report.
* `run`: Carry out what the arguments ask for.
* `Outcome`: What a command leaves behind beside files.
* `execute`: Carry out a command line.
-/

namespace FunctionalOptions

namespace Command

/-- Why a run fails. -/
inductive Failure where
  | usage (error : UsageError)
  | currentDirectory (error : FileError)
  /-- The descriptor at the path cannot be read. -/
  | descriptor (path : String) (error : Descriptor.ReadError)
  /-- There is no usable record for the type. -/
  | record (type : String) (error : RecordError)
  | generation (type : String) (error : GenerationError)
  | output (error : GenerationError)
deriving Repr

namespace Failure

/-- The exit status of a run that fails. -/
def status : Failure → UInt32
  | usage _ => 1
  | currentDirectory _ => 2
  | descriptor .. => 3
  | record .. => 4
  | generation .. => 5
  | output _ => 6

/-- What went wrong, the widest view first. -/
def causes : Failure → List String
  | usage error => [error.message]
  | currentDirectory error => ["failed to get current directory", error.message]
  | descriptor path error => ("failed to load descriptor '" ++ path ++ "'") :: error.causes
  | record type error => ("failed to build model for type '" ++ type ++ "'") :: error.causes
  | generation type error =>
    ("failed to generate options for type '" ++ type ++ "'") :: error.causes
  | output error => error.causes

/-- The line that reports a failure. -/
def report (failure : Failure) : String :=
  "error: " ++ ": ".intercalate failure.causes ++ "\n"

end Failure

/-- The options file that the arguments ask for. -/
def Arguments.generate (arguments : Arguments) (document : Descriptor.Document) :
    Except Failure String := do
  let (package, record) ←
    (document.load arguments.type).result.mapError (.record arguments.type)
  (Model.of arguments.settings package record).generate.result.mapError
    (.generation arguments.type)

variable {m : Type → Type} [Monad m] [Filesystem m]

/-- Carry out what the arguments ask for. What is to be printed is returned. -/
def run (arguments : Arguments) : m (Except Failure String) := do
  match ← Filesystem.currentDirectory with
  | .error error => return .error (.currentDirectory error)
  | .ok current =>
    match ← Descriptor.Document.ofFile arguments.descriptor with
    | .error error => return .error (.descriptor arguments.descriptor error)
    | .ok document =>
      match arguments.generate document with
      | .error failure => return .error failure
      | .ok text =>
        if arguments.stdout then return .ok text
        else
          let directory := Path.join current arguments.source
          let written ← writeOutput (destination arguments.type directory arguments.output) text
          return (written.result.mapError .output).map fun _ => ""

/-- The name and the version of the command. -/
def versionText : String :=
  "gooptions 0.1.0\n"

/-- How the command is used. -/
def helpText : String :=
  "Generate functional options for a Go struct type\n\n" ++
  "Usage: gooptions [OPTIONS] --descriptor <FILE> --type <NAME>\n\n" ++
  "Options:\n" ++
  "  -d, --descriptor <FILE>   Record descriptor file (.xml, otherwise JSON)\n" ++
  "  -t, --type <NAME>         Name of the struct type to generate options for\n" ++
  "  -s, --source <DIR>        Directory of the package the type is declared in [default: .]\n" ++
  "  -o, --output <PATH>       Output file, relative to the source directory [default:\n" ++
  "                            <type>_options.go]\n" ++
  "      --stdout              Print the generated file instead of writing it\n" ++
  "      --option-name <NAME>  Name of the generated option function type [default: Option]\n" ++
  "      --prefix <PREFIX>     Prefix of every generated option function [default: With]\n" ++
  "      --exported-only       Only generate options for exported fields\n" ++
  "  -h, --help                Print help\n" ++
  "  -V, --version             Print version\n\n" ++
  "EXAMPLES:\n" ++
  "  gooptions --descriptor users.json --type User\n" ++
  "  gooptions --descriptor users.xml --type User --source ./internal/users\n" ++
  "  gooptions --descriptor users.json --type User --stdout --exported-only\n"

/-- What a command leaves behind beside files. -/
structure Outcome where
  status : UInt32
  stdout : String
  stderr : String
deriving DecidableEq, Repr

/-- What a run leaves behind. -/
def Outcome.ofResult : Except Failure String → Outcome
  | .error failure => ⟨failure.status, "", failure.report⟩
  | .ok text => ⟨0, text, ""⟩

/-- Carry out a command line. -/
def execute (texts : List String) : m Outcome := do
  match Invocation.ofTexts texts with
  | .error error => return .ofResult (.error (.usage error))
  | .ok .help => return .ofResult (.ok helpText)
  | .ok .version => return .ofResult (.ok versionText)
  | .ok (.run arguments) => return .ofResult (← run arguments)

end Command

end FunctionalOptions
