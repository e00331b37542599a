import FunctionalOptions.Json.Quoted

/-!
# The Text of a Tree

Trees are written compactly: no blanks, members in the order they stand in.
What stands for a fault of some other text has no text of its own and writes
nothing.

## Main definitions

* `Json.text`: The compact text of a tree.
* `ofNat`: The number literal of a natural number.
* `obj`, `arr`, `str`: Trees without faults.
-/

namespace FunctionalOptions

namespace Json

/-- The number that writes a natural number. -/
def ofNat (n : Nat) : Json := .number (toString n)

/-- A string with a text. -/
def str (text : String) : Json := .string (some text)

/-- An array that was closed. -/
def arr (items : List Json) : Json := .array items none

/-- An object that was closed, all of whose names have a text. -/
def obj (members : List (String × Json)) : Json :=
  .object (members.map fun (name, value) => (some name, value)) none

/-- The text of a name, or of a string. One without a text writes nothing. -/
def quotedText : Option String → String
  | some text => writeQuoted text
  | none => ""

mutual

/-- The compact text of a tree. -/
def text : Json → String
  | .null => "null"
  | .bool true => "true"
  | .bool false => "false"
  | .number literal => literal
  | .string text => quotedText text
  | .array items _ => "[" ++ itemsText items ++ "]"
  | .object members _ => "\x7b" ++ membersText members ++ "\x7d"
  | .broken _ => ""

/-- The texts of the items of an array, separated by commas. -/
def itemsText : List Json → String
  | [] => ""
  | [item] => item.text
  | item :: rest => item.text ++ "," ++ itemsText rest

/-- The texts of the members of an object, separated by commas. -/
def membersText : List (Option String × Json) → String
  | [] => ""
  | [(name, value)] => quotedText name ++ ":" ++ value.text
  | (name, value) :: rest => quotedText name ++ ":" ++ value.text ++ "," ++ membersText rest

end

end Json

end FunctionalOptions
