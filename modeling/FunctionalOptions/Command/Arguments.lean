import FunctionalOptions.Command.Word
import FunctionalOptions.Options.Settings

/-!
# Arguments

What a command line asks for. Every option may be given once. The words are
looked at from left to right and the first fault ends the reading, except that
asking for help or for the version is answered as soon as it is met: nothing
behind it matters, and nothing before it has to be complete.

Whether something required is missing, or two options exclude each other, can
only be told at the end.

## Main definitions

* `Parameter`, `Flag`: The options with and without a value.
* `Switch`: All options, with their names and letters.
* `UsageError`: Why a command line asks for nothing.
* `Arguments`: What a run is asked to do.
* `Invocation.ofTexts`: What the words of a command line ask for.

## Theorems

* `Switch.ofName?_name`, `Switch.ofLetter?_letter?`: Names and letters tell the
  options apart.
-/

namespace FunctionalOptions

namespace Command

/-- An option that has a value. -/
inductive Parameter where
  | descriptor
  | type
  | source
  | output
  | optionName
  | functionPrefix
deriving DecidableEq, Repr

/-- An option that is given or not. -/
inductive Flag where
  | stdout
  | exportedOnly
deriving DecidableEq, Repr

/-- The name of an option in full. -/
def Parameter.name : Parameter → String
  | descriptor => "descriptor"
  | type => "type"
  | source => "source"
  | output => "output"
  | optionName => "option-name"
  | functionPrefix => "prefix"

/-- The value of the option is a path, which is never empty. -/
def Parameter.isPath : Parameter → Bool
  | descriptor | source | output => true
  | type | optionName | functionPrefix => false

/-- The name of an option in full. -/
def Flag.name : Flag → String
  | stdout => "stdout"
  | exportedOnly => "exported-only"

/-- What an option stands for. -/
inductive Switch where
  | parameter (parameter : Parameter)
  | flag (flag : Flag)
  | help
  | version
deriving DecidableEq, Repr

namespace Switch

/-- All options. -/
def all : List Switch :=
  [parameter .descriptor, parameter .type, parameter .source, parameter .output,
    parameter .optionName, parameter .functionPrefix, flag .stdout, flag .exportedOnly, help,
    version]

/-- The name of an option in full. -/
def name : Switch → String
  | parameter option => option.name
  | flag option => option.name
  | help => "help"
  | version => "version"

/-- The letter of an option, if it has one. -/
def letter? : Switch → Option Char
  | parameter .descriptor => some 'd'
  | parameter .type => some 't'
  | parameter .source => some 's'
  | parameter .output => some 'o'
  | help => some 'h'
  | version => some 'V'
  | parameter .optionName | parameter .functionPrefix | flag _ => none

/-- The option of a name. Names are not abbreviated. -/
def ofName? (name : String) : Option Switch :=
  all.find? (·.name == name)

/-- The option of a letter. -/
def ofLetter? (letter : Char) : Option Switch :=
  all.find? (·.letter? == some letter)

/-- Every option is the one of its name. -/
theorem ofName?_name (option : Switch) : ofName? option.name = some option := by
  rcases option with (_ | _ | _ | _ | _ | _) | (_ | _) | _ | _ <;> decide

/-- Every option with a letter is the one of its letter. -/
theorem ofLetter?_letter? {option : Switch} {letter : Char} (h : option.letter? = some letter) :
    ofLetter? letter = some option := by
  rcases option with (_ | _ | _ | _ | _ | _) | (_ | _) | _ | _ <;>
    simp only [letter?, Option.some.injEq, reduceCtorEq] at h <;> subst h <;> decide

end Switch

/-- The option that a word names, with the value attached to it. Asking for help
    or for the version by letter is answered before what stands behind the
    letter is looked at. -/
def Switch.ofWord? : Word → Option (Switch × Option String)
  | .long name value => (ofName? name).map (·, value)
  | .short letter rest =>
    (ofLetter? letter).map fun
      | .parameter option => (.parameter option, Word.attached? rest)
      | switch => (switch, none)
  | .ending | .plain _ => none

/-- Why a command line asks for nothing. -/
inductive UsageError where
  | unexpected (word : String)
  | missingValue (parameter : Parameter)
  /-- A value is attached to an option that has none. -/
  | unneededValue (word : String)
  | repeated (name : String)
  | missing (parameter : Parameter)
  /-- The file can be printed or written, not both. -/
  | outputWithStdout
deriving DecidableEq, Repr

/-- The error in words. -/
def UsageError.message : UsageError → String
  | unexpected word => "unexpected argument '" ++ word ++ "'"
  | missingValue parameter => "option '--" ++ parameter.name ++ "' has no value"
  | unneededValue word => "unexpected value in '" ++ word ++ "'"
  | repeated name => "option '--" ++ name ++ "' is given twice"
  | missing parameter => "option '--" ++ parameter.name ++ "' is required"
  | outputWithStdout => "option '--output' cannot be used with '--stdout'"

/-- What a run is asked to do. -/
structure Arguments where
  descriptor : String
  type : String
  source : String
  output : Option String
  stdout : Bool
  settings : Settings
deriving DecidableEq, Repr

/-- What a command line asks for. -/
inductive Invocation where
  | run (arguments : Arguments)
  | help
  | version
deriving DecidableEq, Repr

/-- The options met so far. -/
structure Given where
  values : List (Parameter × String)
  flags : List Flag
deriving DecidableEq, Repr

namespace Given

/-- The value of an option. -/
def value? (given : Given) (parameter : Parameter) : Option String :=
  given.values.lookup parameter

/-- Take down the value of an option. -/
def set (given : Given) (parameter : Parameter) (value : String) : Except UsageError Given :=
  if (given.value? parameter).isSome then .error (.repeated parameter.name)
  else if parameter.isPath ∧ value = "" then .error (.missingValue parameter)
  else .ok { given with values := (parameter, value) :: given.values }

/-- Take down an option without a value. -/
def raise (given : Given) (flag : Flag) : Except UsageError Given :=
  if given.flags.contains flag then .error (.repeated flag.name)
  else .ok { given with flags := flag :: given.flags }

/-- The value of an option that has to be given. -/
def required (given : Given) (parameter : Parameter) : Except UsageError String :=
  match given.value? parameter with
  | none => .error (.missing parameter)
  | some value => .ok value

/-- The choices for the file, as far as they are given. -/
def settings (given : Given) : Settings :=
  let usual : Settings := {}
  { usual with
    optionName := (given.value? .optionName).getD usual.optionName
    functionPrefix := (given.value? .functionPrefix).getD usual.functionPrefix
    visibility := if given.flags.contains .exportedOnly then .exportedOnly else .all }

/-- What the options ask for once all of them are known. -/
def arguments (given : Given) : Except UsageError Arguments := do
  if (given.value? .output).isSome ∧ given.flags.contains .stdout then
    throw .outputWithStdout
  let descriptor ← given.required .descriptor
  let type ← given.required .type
  return {
    descriptor, type
    source := (given.value? .source).getD "."
    output := given.value? .output
    stdout := given.flags.contains .stdout
    settings := given.settings }

end Given

namespace Invocation

/-- What the options ask for at the end of the command line. -/
def ofGiven (given : Given) : Except UsageError Invocation :=
  given.arguments.map .run

/-- What the rest of a command line asks for, the options met so far being
    known. The value of an option is attached to it or is the next word, which
    must not look like an option itself. -/
def ofRest (given : Given) : List String → Except UsageError Invocation
  | [] => ofGiven given
  | text :: rest =>
    match Word.ofText text with
    | .ending =>
      match rest with
      | [] => ofGiven given
      | extra :: _ => .error (.unexpected extra)
    | word =>
      match Switch.ofWord? word with
      | none => .error (.unexpected text)
      | some (.parameter parameter, some value) => do
        ofRest (← given.set parameter value) rest
      | some (.parameter parameter, none) =>
        match rest with
        | [] => .error (.missingValue parameter)
        | value :: rest =>
          if (Word.ofText value).isPlain then do
            ofRest (← given.set parameter value) rest
          else .error (.missingValue parameter)
      | some (.flag flag, none) => do
        ofRest (← given.raise flag) rest
      | some (.help, none) => .ok .help
      | some (.version, none) => .ok .version
      | some (_, some _) => .error (.unneededValue text)

/-- What the words of a command line ask for. -/
def ofTexts (texts : List String) : Except UsageError Invocation :=
  ofRest ⟨[], []⟩ texts

end Invocation

end Command

end FunctionalOptions
