import FunctionalOptions.Record.Conversion
import FunctionalOptions.Record.Validation

/-!
# Loading a Record

Finding a record and making sure that options can be generated for it. The
package comes first: without a usable short name for it no file can be written
at all, whatever records it has.

Records are asked for by name. Whoever answers is a provider, and generation
does not look behind it. A document is the provider at hand.

## Main definitions

* `Descriptor.Provider`: Where records are found.
* `Descriptor.Provider.load`: A usable record with its package.
* `Descriptor.Document.find`: The descriptor of a record in a document.
* `Descriptor.Document.provider`: A document as a provider.
-/

namespace FunctionalOptions

namespace Descriptor

/-- Where records are found: the package they are declared in, and for every name
    a descriptor or the reason why there is none. -/
structure Provider where
  origin : Go.Package
  find : String → Except RecordError Descriptor.Record

/-- A usable record with its package. -/
def Provider.load (provider : Provider) (name : String) :
    Logged RecordError (Go.Package × FunctionalOptions.Record) := do
  .ofExcept (provider.origin.validate.mapError fun fault => .invalid (.package fault))
  let descriptor ← .ofExcept (provider.find name)
  let record ← FunctionalOptions.Record.ofDescriptor descriptor
  .ofExcept (record.validate.mapError .invalid)
  return (provider.origin, record)

namespace Document

/-- The package of a document. -/
def origin (document : Document) : Go.Package :=
  .ofDescriptor document.package

/-- The descriptor of a record. The first of a name counts. -/
def find (document : Document) (name : String) : Except RecordError Descriptor.Record :=
  match document.record? name with
  | some record => .ok record
  | none => .error (.notFound name)

/-- A document as a provider of its records. -/
def provider (document : Document) : Provider :=
  ⟨document.origin, document.find⟩

/-- A usable record of a document with its package. -/
def load (document : Document) (name : String) :
    Logged RecordError (Go.Package × FunctionalOptions.Record) :=
  document.provider.load name

end Document

end Descriptor

end FunctionalOptions
