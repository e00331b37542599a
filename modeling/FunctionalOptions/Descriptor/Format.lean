import FunctionalOptions.Descriptor.Json.Read
import FunctionalOptions.Descriptor.Xml.Read

/-!
# Descriptor Formats

The two formats a descriptor may be written in. Which one a text is in is told
from outside; the texts do not announce it.

## Main definitions

* `Descriptor.Format`: The two formats.
* `Descriptor.Format.read`: The document a text describes.
-/

namespace FunctionalOptions

namespace Descriptor

/-- A format for descriptors. -/
inductive Format where
  | xml
  | json
deriving DecidableEq, Repr

/-- The document a text describes. -/
def Format.read (format : Format) (text : String) : Except ReadError Document :=
  match format with
  | .xml => Document.ofXml text
  | .json => (Document.ofJson text).mapError .json

end Descriptor

end FunctionalOptions
