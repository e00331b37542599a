import FunctionalOptions.Files.Filesystem
import FunctionalOptions.Options.Generate
import FunctionalOptions.Unicode.Lowercase

/-!
# The Output File

Where an options file goes, and putting it there. Unless another path is asked
for, the file is named after the type and stands in the directory that the
record was declared in.

The whole text exists before the first directory is created. A record for which
no options can be generated therefore leaves no trace on the disk.

## Main definitions

* `defaultFileName`: The name of the options file of a type.
* `destination`: The path of the options file.
* `writeOutput`: Write a text, reporting where it went.
* `Descriptor.Provider.generateToFile`: Generate the options file of a record
  and write it.
-/

namespace FunctionalOptions

/-- The name of the options file of a type. All of it is in lower case. -/
def defaultFileName (type : String) : String :=
  Unicode.lowercase (type ++ "_options.go")

/-- The path of the options file. A path that is asked for counts from the
    source directory unless it is absolute. -/
def destination (type sourceDirectory : String) (path : Option String) : String :=
  Path.join sourceDirectory (path.getD (defaultFileName type))

variable {m : Type → Type} [Monad m] [Filesystem m]

/-- Write a text, reporting where it went. -/
def writeOutput (path text : String) : m (Logged GenerationError Unit) := do
  match ← Filesystem.writeText path text with
  | .error error => return .fail (.output path error)
  | .ok () => return .report .info ("wrote " ++ path)

/-- Generate the options file of a record and write it. The path it was written
    to is returned. -/
def Descriptor.Provider.generateToFile (provider : Provider) (name sourceDirectory : String)
    (path : Option String) (settings : Settings) : m (Logged GenerationError String) := do
  let source := provider.generate name settings
  match source.result with
  | .error error => return ⟨source.events, .error error⟩
  | .ok text =>
    let target := destination name sourceDirectory path
    let written ← writeOutput target text
    return do
      let _ ← source
      written
      return target

/-- Generate the options file of a record of a document and write it. -/
def Descriptor.Document.generateToFile (document : Document) (name sourceDirectory : String)
    (path : Option String) (settings : Settings) : m (Logged GenerationError String) :=
  document.provider.generateToFile name sourceDirectory path settings

end FunctionalOptions
