import FunctionalOptions.Options.GenerationError
import FunctionalOptions.Options.Model
import FunctionalOptions.Options.ParameterNames

/-!
# Option Functions

One function for every selected field, in the order of the fields. The function
is named after the field behind a common beginning, and takes one parameter of
the type of the field.

Two fields that differ only in the case of their first character lead to one
function name. The second of them is an error, found before its parameter is
named and its type printed.

## Main definitions

* `OptionFunction`: The names and the type that make up a function.
* `OptionFunction.text`: The declaration of a function.
* `Model.functions`: The functions of a model.
-/

namespace FunctionalOptions

/-- An option function: the field it sets, its name, and its parameter. -/
structure OptionFunction where
  field : String
  name : String
  parameter : String
  parameterType : String
deriving DecidableEq, Repr

namespace OptionFunction

/-- The declaration of a function. -/
def text (function : OptionFunction) (optionName receiver record : String) : String :=
  "func " ++ function.name ++ "(" ++ function.parameter ++ " " ++ function.parameterType ++
    ") " ++ optionName ++ " \x7b\n" ++
  "\treturn func(" ++ receiver ++ " *" ++ record ++ ") \x7b\n" ++
  "\t\t" ++ receiver ++ "." ++ function.field ++ " = " ++ function.parameter ++ "\n" ++
  "\t\x7d\n" ++
  "\x7d\n"

/-- What is said about a function. -/
def announcement (function : OptionFunction) : String :=
  "field '" ++ function.field ++ "' -> " ++ function.name ++ "(" ++ function.parameter ++ " " ++
    function.parameterType ++ ")"

end OptionFunction

namespace Model

/-- The name of the function for a field. -/
def functionName (model : Model) (field : Record.Field) : String :=
  model.settings.functionPrefix ++ Go.title field.name

/-- The functions of a list of fields, given the function names that are taken
    and the parameter names in use. -/
def functionsOf (model : Model) (taken : List String) (names : ParameterNames) :
    List Record.Field → Logged GenerationError (List OptionFunction)
  | [] => pure []
  | field :: rest =>
    let name := model.functionName field
    if taken.contains name then .fail (.duplicateFunction model.record.name name)
    else do
      let (parameter, names) := names.forField field.name
      let parameterType ← (field.type.render model.aliases).mapError .render
      let function := ⟨field.name, name, parameter, parameterType⟩
      .debug function.announcement
      let functions ← functionsOf model (name :: taken) names rest
      return function :: functions

/-- The functions of a model. The name of the receiver is not available to
    parameters. -/
def functions (model : Model) : Logged GenerationError (List OptionFunction) :=
  model.functionsOf [] (ParameterNames.fresh.reserve model.receiver) model.selected

end Model

end FunctionalOptions
