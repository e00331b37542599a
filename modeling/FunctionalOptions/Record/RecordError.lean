import FunctionalOptions.Descriptor.Basic

/-!
# Errors of Loading a Record

Why a descriptor holds no usable record of a name. There may be no such record,
one of its fields may have a shape that the types of this library do not cover,
or the record may break a rule of the language.

## Main definitions

* `Unsupported`: A shape that no type stands for.
* `TypeFault`: A rule of the language that a type breaks.
* `Violation`: A rule of the language that a record breaks.
* `RecordError`: Why there is no usable record.
* `RecordError.message`: The error in words.
-/

namespace FunctionalOptions

/-- A shape that no type stands for. -/
inductive Unsupported where
  | shape (shape : Descriptor.Shape)
  /-- A variadic function without parameters. -/
  | variadicWithoutParameters
  /-- A variadic function whose last parameter is no slice. -/
  | variadicWithoutSlice (last : Descriptor.Shape)
deriving Repr

/-- The shape in words. -/
def Unsupported.message : Unsupported → String
  | .shape s => s.describe
  | .variadicWithoutParameters => "variadic func without parameters"
  | .variadicWithoutSlice last =>
    "variadic parameter of " ++ last.describe ++ " instead of slice"

/-- A package whose short name cannot stand in source text. -/
structure PackageFault where
  path : String
  name : String
deriving DecidableEq, Repr

/-- The fault in words. -/
def PackageFault.message (fault : PackageFault) : String :=
  "package '" ++ fault.path ++ "' has short name '" ++ fault.name ++
    "', which is not an identifier; set an explicit package name"

/-- A rule of the language that a type breaks. -/
inductive TypeFault where
  | emptyPredeclared
  | invalidName (name : String)
  | package (fault : PackageFault)
  /-- A variadic mark on a parameter before the last. -/
  | variadicNotLast (position : Nat)
  | variadicResult
deriving DecidableEq, Repr

/-- The fault in words. -/
def TypeFault.message : TypeFault → String
  | emptyPredeclared => "empty predeclared name"
  | invalidName name => "invalid type name '" ++ name ++ "'"
  | package fault => fault.message
  | variadicNotLast position =>
    "variadic parameter at position " ++ toString position ++ " is not last"
  | variadicResult => "variadic result parameter"

/-- A rule of the language that a record breaks. -/
inductive Violation where
  | recordName (record : String)
  | fieldName (field record : String)
  | duplicateField (field record : String)
  | fieldType (record field : String) (fault : TypeFault)
  /-- The package of the record itself. -/
  | package (fault : PackageFault)
deriving DecidableEq, Repr

/-- The violation in words. -/
def Violation.message : Violation → String
  | recordName record => "invalid record name '" ++ record ++ "'"
  | fieldName field record => "invalid field name '" ++ field ++ "' in record '" ++ record ++ "'"
  | duplicateField field record => "duplicate field '" ++ field ++ "' in record '" ++ record ++ "'"
  | fieldType record field fault => record ++ "." ++ field ++ ": " ++ fault.message
  | package fault => fault.message

/-- Why there is no usable record. -/
inductive RecordError where
  | notFound (name : String)
  /-- A shape at the given path that no type stands for. -/
  | unsupported (path : String) (shape : Unsupported)
  | invalid (violation : Violation)
deriving Repr

namespace RecordError

/-- The error in words. -/
def message : RecordError → String
  | notFound name => "record type '" ++ name ++ "' not found"
  | unsupported path shape => "unsupported type shape in '" ++ path ++ "': " ++ shape.message
  | invalid violation => "validation error: " ++ violation.message

/-- The messages of a report. The error has no cause beyond itself. -/
def causes (error : RecordError) : List String :=
  [error.message]

end RecordError

end FunctionalOptions
