import FunctionalOptions.Descriptor.Format
import FunctionalOptions.Options.SourceFile
import FunctionalOptions.Record.Load

/-!
# From a Descriptor to a File

The whole way from a document, or the text of one, to the options file of one
of its records.

## Main definitions

* `Descriptor.Provider.generate`: The options file of a record.
* `Descriptor.Document.generate`: The same, for a record of a document.
* `generateFromText`: The same, from the text of a document.
-/

namespace FunctionalOptions

/-- What is said about a record once it is loaded. -/
def loadedRecord (package : Go.Package) (record : Record) : String :=
  "loaded record " ++ record.name ++ " with " ++ toString record.fields.length ++
    " fields from " ++ package.path

/-- The options file of a record. -/
def Descriptor.Provider.generate (provider : Provider) (name : String) (settings : Settings) :
    Logged GenerationError String := do
  let (package, record) ← (provider.load name).mapError .record
  .debug (loadedRecord package record)
  let model ← Model.resolve settings package record
  model.generate

/-- The options file of a record of a document. -/
def Descriptor.Document.generate (document : Document) (name : String) (settings : Settings) :
    Logged GenerationError String :=
  document.provider.generate name settings

/-- The options file of a record that a text describes. -/
def generateFromText (format : Descriptor.Format) (text name : String) (settings : Settings) :
    Logged GenerationError String := do
  let document ← .ofExcept ((format.read text).mapError .descriptor)
  document.generate name settings

end FunctionalOptions
