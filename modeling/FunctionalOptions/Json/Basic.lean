/-!
# JSON Trees

What a JSON text holds, up to the point where it stops being JSON.

Readers of a text have to name the first thing that is wrong with it, and the
wrong thing may be a missing brace as well as a number where a name belongs.
Were the text checked as a whole before it is interpreted, every fault of the
first kind would come before every fault of the second. So a tree is built from
any text whatever, the faults of the text are part of the tree, and whoever
walks the tree in the order of the text meets all faults in the order of the
text.

A fault has two names, since a value that is read for its meaning is held to
more than one that is skipped: a number cut off at the end of the text is
incomplete to a reader and merely malformed to someone passing over it.

## Main definitions

* `Json.Failure`: Why a text cannot be read.
* `Json.Stop`: A place where the text stops being JSON.
* `Json`: The tree of a text.
-/

namespace FunctionalOptions

namespace Json

/-- Why a text cannot be read. -/
inductive Failure where
  /-- The text is not JSON, or goes past a limit of the reader. -/
  | malformed
  /-- The text ends too early. -/
  | truncated
  /-- The text is JSON and says something else than what was asked for. -/
  | mismatched
deriving DecidableEq, Repr

/-- The failure in words. -/
def Failure.message : Failure → String
  | malformed => "malformed text"
  | truncated => "unexpected end of text"
  | mismatched => "unexpected value"

/-- A place where the text stops being JSON, with the failure it means to one
    who reads the value there and to one who only skips it. -/
structure Stop where
  reading : Failure
  skipping : Failure
deriving DecidableEq, Repr

namespace Stop

/-- The text goes on with something that cannot stand here. -/
def malformed : Stop := ⟨.malformed, .malformed⟩

/-- The text ends where more is needed. -/
def truncated : Stop := ⟨.truncated, .truncated⟩

/-- The text ends inside a number. Skipping does not tell this from a number
    with a wrong character in it. -/
def insideNumber : Stop := ⟨.truncated, .malformed⟩

end Stop

end Json

/-- The tree of a text. A number keeps its literal, a string that names half of
    a surrogate pair has no text, and an array or object records how it ended:
    `none` when it was closed. -/
inductive Json where
  | null
  | bool (value : Bool)
  | number (literal : String)
  | string (text : Option String)
  | array (items : List Json) (stop : Option Json.Stop)
  | object (members : List (Option String × Json)) (stop : Option Json.Stop)
  | broken (stop : Json.Stop)
deriving Repr, Inhabited

end FunctionalOptions
