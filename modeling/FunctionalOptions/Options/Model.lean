import FunctionalOptions.Go.AliasTable
import FunctionalOptions.Options.Settings
import FunctionalOptions.Record.Basic

/-!
# Models

Everything that a generated file depends on. The aliases are those of all the
packages the record refers to, although the file imports only the ones its
options need: a package keeps its alias when a field is hidden.

## Main definitions

* `Model`: The settings, the package, the record and the aliases.
* `Model.of`, `Model.resolve`: The model of a record, without and with the
  report on its aliases.
* `Model.selected`: The fields that get an option.
* `Model.receiver`: The name of the record inside the generated functions.
-/

namespace FunctionalOptions

/-- Everything that a generated file depends on. -/
structure Model where
  settings : Settings
  package : Go.Package
  record : Record
  aliases : Go.AliasTable

namespace Model

/-- The model of a record. -/
def of (settings : Settings) (package : Go.Package) (record : Record) : Model :=
  ⟨settings, package, record, .ofPackages package record.packages⟩

/-- The model of a record, reporting the aliases of its packages. -/
def resolve {ε : Type} (settings : Settings) (package : Go.Package) (record : Record) :
    Logged ε Model := do
  let aliases ← Go.AliasTable.resolve package record.packages
  return ⟨settings, package, record, aliases⟩

/-- The field gets an option: it is not passed over, can be assigned to, and is
    visible as far as the settings ask. -/
def selects (model : Model) (field : Record.Field) : Bool :=
  !field.ignored && field.name != Go.blank &&
    (model.settings.visibility == .all || field.isExported)

/-- The fields that get an option, in the order they are declared in. -/
def selected (model : Model) : List Record.Field :=
  model.record.fields.filter model.selects

/-- The name of the record inside the generated functions: the first character
    of its type, lowered. -/
def receiver (model : Model) : String :=
  Go.lowerInitial model.record.name

/-- The import lines that the options need. -/
def imports (model : Model) : List Go.Import :=
  model.aliases.importsFor (Record.packagesOf model.selected)

end Model

end FunctionalOptions
