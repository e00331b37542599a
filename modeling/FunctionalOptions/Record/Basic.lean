import FunctionalOptions.Go.Identifier
import FunctionalOptions.Go.TypeExpr

/-!
# Records

A struct type whose fields have types the generator can print. A field may be
marked as one that the generator passes over. It still belongs to the record,
and the packages of its type count among those the record refers to.

## Main definitions

* `Record`, `Record.Field`: A record and its fields in the order they are
  declared in.
* `Record.active`, `Record.exported`: The fields that are not passed over, and
  those that are visible outside the package.
* `Record.packages`: The packages that the fields refer to.
-/

namespace FunctionalOptions

/-- A field of a record. -/
structure Record.Field where
  name : String
  type : Go.TypeExpr
  ignored : Bool
deriving Repr

/-- A struct type with its fields in the order they are declared in. -/
structure Record where
  name : String
  fields : List Record.Field
deriving Repr

namespace Record

/-- The field is visible outside its package. -/
def Field.isExported (field : Field) : Bool :=
  Go.isExported field.name

/-- The packages that a list of fields refers to, in the order in which they
    come up and with repetitions. -/
def packagesOf (fields : List Field) : List Go.Package :=
  fields.flatMap (·.type.packages)

/-- The record with one more field at the end. -/
def add (record : Record) (field : Field) : Record :=
  { record with fields := record.fields ++ [field] }

/-- The fields that are not passed over. -/
def active (record : Record) : List Field :=
  record.fields.filter (!·.ignored)

/-- The fields that are visible outside the package, whether or not they are
    passed over. -/
def exported (record : Record) : List Field :=
  record.fields.filter (·.isExported)

/-- The packages that the fields of a record refer to, those of ignored fields
    among them. -/
def packages (record : Record) : List Go.Package :=
  packagesOf record.fields

end Record

end FunctionalOptions
