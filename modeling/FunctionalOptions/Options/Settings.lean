/-!
# Settings

What can be chosen about a generated file: the names of the option type, of the
functions and of the method that applies them, the comment on top, and whether
unexported fields get an option too.

## Main definitions

* `Visibility`: Which fields get an option.
* `Settings`: The choices for a file, with their defaults.
-/

namespace FunctionalOptions

/-- Which fields of a record get an option. -/
inductive Visibility where
  /-- Every field that is not passed over. -/
  | all
  /-- Only those that are visible outside their package. -/
  | exportedOnly
deriving DecidableEq, Repr

/-- The choices for a generated file. -/
structure Settings where
  /-- The name of the option type. -/
  optionName : String := "Option"
  /-- What the name of every option function begins with. -/
  functionPrefix : String := "With"
  /-- The name of the method that applies options to a record. -/
  applyName : String := "with"
  visibility : Visibility := .all
  /-- The comment on top of the file. -/
  header : String := "// DO NOT EDIT. This file was generated by gooptions."
deriving DecidableEq, Repr

end FunctionalOptions
