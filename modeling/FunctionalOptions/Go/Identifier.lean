import FunctionalOptions.Unicode.Alphabetic
import FunctionalOptions.Unicode.CaseMapping
import FunctionalOptions.Unicode.Numeric
import FunctionalOptions.Unicode.Uppercase

/-!
# Identifiers

What makes a text a name in Go source, and the names derived from a name by
changing the case of its first character. A capital first character is what
makes a name visible outside its package, so an option function for an
unexported field has to raise it, and a parameter for an exported one lowers
it.

Only the first character changes. Its other form may take several characters,
so the derived name can be longer than the one it came from.

## Main definitions

* `isIdentifier`: The text can be a name.
* `isKeyword`: The name is reserved by the language.
* `isExported`: The name is visible outside its package.
* `title`, `lowerFirst`: The name with its first character raised or lowered.
-/

namespace FunctionalOptions

namespace Go

/-- The character can begin a name. -/
def isNameStart (c : Char) : Bool :=
  Unicode.isAlphabetic c || c = '_'

/-- The character can continue a name. -/
def isNamePart (c : Char) : Bool :=
  Unicode.isAlphabetic c || Unicode.isNumeric c || c = '_'

/-- The text can be a name: a letter or an underscore, followed by letters,
    digits and underscores. Keywords are not excluded here. -/
def isIdentifier (text : String) : Bool :=
  match text.toList with
  | [] => false
  | c :: rest => isNameStart c && rest.all isNamePart

/-- The keywords of the language. -/
def keywords : List String :=
  ["break", "case", "chan", "const", "continue", "default", "defer", "else", "fallthrough",
    "for", "func", "go", "goto", "if", "import", "interface", "map", "package", "range",
    "return", "select", "struct", "switch", "type", "var"]

/-- The name is reserved by the language. -/
def isKeyword (name : String) : Bool :=
  keywords.contains name

/-- The blank name, which can be declared and never used. -/
def blank : String := "_"

/-- The name is visible outside its package. -/
def isExported (name : String) : Bool :=
  match name.toList with
  | [] => false
  | c :: _ => Unicode.isUppercase c

/-- The name with its first character raised to a capital. -/
def title (name : String) : String :=
  match name.toList with
  | [] => ""
  | c :: rest => String.ofList (Unicode.toUpper c ++ rest)

/-- The name with its first character lowered. -/
def lowerFirst (name : String) : String :=
  match name.toList with
  | [] => ""
  | c :: rest => String.ofList (Unicode.toLower c ++ rest)

/-- The first character of a name, lowered and on its own. -/
def lowerInitial (name : String) : String :=
  match name.toList with
  | [] => ""
  | c :: _ => String.ofList (Unicode.toLower c)

end Go

end FunctionalOptions
