import FunctionalOptions.Record.Basic
import FunctionalOptions.Record.RecordError

/-!
# Valid Records

The rules that a record has to keep before options are generated for it: its
names are identifiers, no field comes twice, and every name inside a field type
can stand in source text. The blank name is no real name and may come as often
as it likes.

A function type may be variadic in its last parameter only. Within one function
the parameters are gone through in order, each mark before the type it belongs
to; the marks of all results come before the type of any.

## Main definitions

* `Go.Package.validate`: The short name of a package can stand in source text.
* `Go.TypeExpr.validate`: The rules for a type.
* `Record.validate`: The rules for a record.
-/

namespace FunctionalOptions

namespace Go

/-- The short name of a package can stand in source text. -/
def Package.validate (package : Package) : Except PackageFault Unit :=
  if isIdentifier package.name then .ok ()
  else .error ⟨package.path, package.name⟩

/-- The rules for a declared name. -/
def validateNamed (package : Option Package) (name : String) : Except TypeFault Unit :=
  if !isIdentifier name then .error (.invalidName name)
  else match package with
    | none => .ok ()
    | some package => package.validate.mapError .package

namespace TypeExpr

mutual

/-- The rules for a type. -/
def validate : TypeExpr → Except TypeFault Unit
  | .predeclared name => if name = "" then .error .emptyPredeclared else .ok ()
  | .named package name => validateNamed package name
  | .pointer elem => elem.validate
  | .slice elem => elem.validate
  | .array _ elem => elem.validate
  | .channel _ elem => elem.validate
  | .map key value => do
    key.validate
    value.validate
  | .func inputs outputs => do
    validateInputs 0 inputs
    if outputs.any (·.variadic) then throw .variadicResult
    validateOutputs outputs

/-- The rules for parameters, the first of which has the given position. -/
def validateInputs (position : Nat) : List (Param TypeExpr) → Except TypeFault Unit
  | [] => .ok ()
  | p :: rest =>
    if p.variadic && !rest.isEmpty then .error (.variadicNotLast position)
    else do
      validateParam p
      validateInputs (position + 1) rest

/-- The rules for the types of results. -/
def validateOutputs : List (Param TypeExpr) → Except TypeFault Unit
  | [] => .ok ()
  | p :: rest => do
    validateParam p
    validateOutputs rest

/-- The rules for the type of a parameter or result. -/
def validateParam : Param TypeExpr → Except TypeFault Unit
  | ⟨_, type, _⟩ => type.validate

end

end TypeExpr

end Go

namespace Record

/-- The rules for the fields of a record, given the names that are taken. -/
def validateFields (record : String) (taken : List String) :
    List Field → Except Violation Unit
  | [] => .ok ()
  | field :: rest =>
    if !Go.isIdentifier field.name then .error (.fieldName field.name record)
    else if field.name != Go.blank && taken.contains field.name then
      .error (.duplicateField field.name record)
    else do
      field.type.validate.mapError (.fieldType record field.name)
      validateFields record (field.name :: taken) rest

/-- The rules for a record. -/
def validate (record : Record) : Except Violation Unit :=
  if !Go.isIdentifier record.name then .error (.recordName record.name)
  else validateFields record.name [] record.fields

end Record

end FunctionalOptions
