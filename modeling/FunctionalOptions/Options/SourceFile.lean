import FunctionalOptions.Options.OptionFunction

/-!
# The Generated File

The parts of an options file in the order in which they stand: the comment and
the package clause, the import block, the option type, the method that applies
options, and the option functions. The import block is left out when nothing is
imported, the comment when it is empty.

Everything is put together in memory. A file is complete or does not come
about.

## Main definitions

* `Model.sourceText`: The file with given functions.
* `Model.generate`: The file of a model.
-/

namespace FunctionalOptions

/-- A line of the import block. The alias is spelled out when the path does not
    show it. -/
def Go.Import.text (line : Go.Import) : String :=
  (if line.isNamed then "\t" ++ line.localName ++ " \"" else "\t\"") ++ line.path ++ "\"\n"

namespace Model

/-- The comment on top and the package clause. -/
def headerText (model : Model) : String :=
  (if model.settings.header = "" then "" else model.settings.header ++ "\n\n") ++
    "package " ++ model.package.name ++ "\n\n"

/-- The import block, or nothing if there is nothing to import. -/
def importText (model : Model) : String :=
  match model.imports with
  | [] => ""
  | lines => "import (\n" ++ String.join (lines.map (·.text)) ++ ")\n\n"

/-- The declaration of the option type. -/
def optionTypeText (model : Model) : String :=
  "type " ++ model.settings.optionName ++ " func(*" ++ model.record.name ++ ")\n"

/-- The method that applies a list of options to a record. -/
def applyText (model : Model) : String :=
  "func (" ++ model.receiver ++ " *" ++ model.record.name ++ ") " ++ model.settings.applyName ++
    "(options ..." ++ model.settings.optionName ++ ") *" ++ model.record.name ++ " \x7b\n" ++
  "\tfor _, option := range options \x7b\n" ++
  "\t\toption(" ++ model.receiver ++ ")\n" ++
  "\t\x7d\n" ++
  "\treturn " ++ model.receiver ++ "\n" ++
  "\x7d\n"

/-- The declaration of a function as it stands in the file of a model, with a
    blank line before it. -/
def functionText (model : Model) (function : OptionFunction) : String :=
  "\n" ++ function.text model.settings.optionName model.receiver model.record.name

/-- The file of a model whose functions are given. -/
def sourceText (model : Model) (functions : List OptionFunction) : String :=
  model.headerText ++ model.importText ++ model.optionTypeText ++ "\n" ++ model.applyText ++
    String.join (functions.map model.functionText)

/-- The file of a model. -/
def generate (model : Model) : Logged GenerationError String := do
  let functions ← model.functions
  .debug ("generated " ++ toString functions.length ++ " option functions for " ++
    model.record.name)
  return model.sourceText functions

end Model

end FunctionalOptions
