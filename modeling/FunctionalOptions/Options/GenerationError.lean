import FunctionalOptions.Descriptor.ReadError
import FunctionalOptions.Files.FileError
import FunctionalOptions.Go.TypeText
import FunctionalOptions.Record.RecordError

/-!
# Errors of Generation

Why no options file comes about: the descriptor cannot be read, it holds no
usable record, a type cannot be printed, two fields lead to one function, or
the file cannot be written. The first three pass on an error of their own and
embed its wording.

## Main definitions

* `GenerationError`: Why no options file comes about.
* `GenerationError.message`, `GenerationError.causes`: The wording.
-/

namespace FunctionalOptions

/-- Why no options file comes about. -/
inductive GenerationError where
  | descriptor (error : Descriptor.ReadError)
  | record (error : RecordError)
  | render (error : Go.RenderError)
  /-- The file at the path cannot be written. -/
  | output (path : String) (error : FileError)
  /-- Two fields of the record lead to one option function. -/
  | duplicateFunction (record function : String)
deriving Repr

namespace GenerationError

/-- The error in words. -/
def message : GenerationError → String
  | .descriptor error => "descriptor parse error: " ++ error.message
  | .record error => "schema error: " ++ error.message
  | .render error => "render error: " ++ error.message
  | .output path error => "failed to write '" ++ path ++ "': " ++ error.message
  | .duplicateFunction owner function =>
    "generation error: fields of '" ++ owner ++ "' produce duplicate option function '" ++
      function ++ "'"

/-- The messages of a report, outermost first. -/
def causes (error : GenerationError) : List String :=
  error.message :: match error with
    | .descriptor error => error.causes
    | .record error => error.causes
    | .render error => [error.message]
    | .output _ error => [error.message]
    | .duplicateFunction .. => []

end GenerationError

end FunctionalOptions
