import FunctionalOptions.Files.FileError
import FunctionalOptions.Json.Basic
import FunctionalOptions.Xml.Fault
import FunctionalOptions.Xml.Reference

/-!
# Errors of Reading a Descriptor

Why no document comes out of a descriptor. The text may be at fault as markup
or as JSON, the elements may not be arranged as a document is, or the file may
not be readable.

An error has a message, and a report lists the messages of its causes after it.
Errors that pass on a fault of the text embed the wording of the fault in their
own, so in a report the wording comes up again.

## Main definitions

* `Descriptor.LayoutFault`: How elements are not arranged as a document is.
* `Descriptor.ReadError`: Why no document comes out of a descriptor.
* `Descriptor.ReadError.message`, `Descriptor.ReadError.causes`: The wording.
-/

namespace FunctionalOptions

namespace Descriptor

/-- How elements are not arranged as a document is. -/
inductive LayoutFault where
  | noPackage
  | unterminated (element : String)
  /-- An element without contents where a field of the record was to be. -/
  | fieldWithoutType (element record : String)
  | noType (element : String)
  | severalTypes (element : String)
  /-- A container without contents. -/
  | noElementType (element : String)
  /-- A map without contents. -/
  | noKeyAndValue
  | noKey
  | noValue
  /-- An element without contents inside a map or function. -/
  | childWithoutType (element child : String)
deriving DecidableEq, Repr

namespace LayoutFault

/-- The fault in words. -/
def message : LayoutFault → String
  | noPackage => "No package element found"
  | unterminated element => "unterminated " ++ element ++ " element"
  | fieldWithoutType element record =>
    "<" ++ element ++ "> in record '" ++ record ++ "' has no type"
  | noType element => element ++ " element has no type"
  | severalTypes element => element ++ " element must contain exactly one type"
  | noElementType element => element ++ " element has no element type"
  | noKeyAndValue => "map element has no key and value"
  | noKey => "map element has no key"
  | noValue => "map element has no value"
  | childWithoutType element child => element ++ " " ++ child ++ " has no type"

end LayoutFault

/-- Why no document comes out of a descriptor. -/
inductive ReadError where
  | markup (fault : Xml.Fault)
  | reference (fault : Xml.ReferenceFault)
  | json (failure : Json.Failure)
  | missingAttribute (element key : String)
  | invalidAttribute (element key value : String)
  /-- An element that has no place inside the context. -/
  | unknownElement (element context : String)
  /-- A second definition of the same thing. -/
  | duplicate (kind name : String)
  | layout (fault : LayoutFault)
  | file (error : FileError)
deriving DecidableEq, Repr

namespace ReadError

/-- The error in words. -/
def message : ReadError → String
  | markup fault => "XML parsing error: " ++ fault.message
  | reference fault => "XML escape error: " ++ fault.message
  | json failure => "JSON error: " ++ failure.message
  | missingAttribute element key =>
    "missing required attribute '" ++ key ++ "' on element '" ++ element ++ "'"
  | invalidAttribute element key value =>
    "invalid value '" ++ value ++ "' for attribute '" ++ key ++ "' on element '" ++
      element ++ "'"
  | unknownElement element context =>
    "unknown element '" ++ element ++ "' in context '" ++ context ++ "'"
  | duplicate kind name => "duplicate " ++ kind ++ " definition: '" ++ name ++ "'"
  | layout fault => "invalid descriptor structure: " ++ fault.message
  | file error => "IO error: " ++ error.message

/-- The messages of a report, outermost first. -/
def causes (error : ReadError) : List String :=
  error.message :: match error with
    | markup fault => fault.causes
    | reference fault => fault.causes
    | json failure => [failure.message]
    | file error => [error.message]
    | _ => []

end ReadError

end Descriptor

end FunctionalOptions
