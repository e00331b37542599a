import FunctionalOptions.Descriptor.Format
import FunctionalOptions.Files.Filesystem

/-!
# Descriptor Files

Reading a descriptor from a file. The end of the path tells the format: the
extension `xml`, in any mixture of cases, stands for XML, and everything else
for JSON. What the file holds is not looked at to find out.

## Main definitions

* `Descriptor.Format.ofPath`: The format of the file at a path.
* `Descriptor.Document.ofFile`: The document that a file describes.
-/

namespace FunctionalOptions

namespace Descriptor

/-- The format of the file at a path. -/
def Format.ofPath (path : String) : Format :=
  match Path.extension? path with
  | none => .json
  | some extension => if extension.map Char.toLower = ['x', 'm', 'l'] then .xml else .json

variable {m : Type → Type} [Monad m] [Filesystem m]

/-- The document that a file describes. -/
def Document.ofFile (path : String) : m (Except ReadError Document) := do
  match ← Filesystem.readText path with
  | .error error => return .error (.file error)
  | .ok text => return (Format.ofPath path).read text

end Descriptor

end FunctionalOptions
