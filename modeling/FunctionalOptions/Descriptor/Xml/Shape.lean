import FunctionalOptions.Descriptor.Basic
import FunctionalOptions.Descriptor.ReadError
import FunctionalOptions.Xml.Element

/-!
# Shapes from Elements

An element named by a kind describes a shape of that kind. Names, lengths and
directions are attributes; element types, keys, values, parameters and members
are children. An element is read from its tag to its end, so of two faults the
one that comes first in the text is reported.

How much may stand inside an element depends on its kind. Containers hold
exactly one type, a map one key and one value, a function parameters and
results in any mixture. What stands inside a shape that has no contents is
passed over, provided the element ends. The members of an interface or struct
are the elements of the one permitted name, and are collected wherever they
stand: a member inside a member counts like any other.

## Main definitions

* `required`, `optional`: The value of an attribute.
* `finish`: The end of an element.
* `readShapeElement`: The shape an element describes.
* `readOnly`: The one shape among the contents of an element.
* `memberNames`: The names of the members among the contents of an element.
-/

namespace FunctionalOptions

namespace Descriptor

open Xml (Element Ending Tag)

/-- A computation that may find a fault in the descriptor. -/
abbrev Result (α : Type) := Except ReadError α

/-- The attributes of a tag. -/
def attributesOf (tag : Tag) : Result (List (String × String)) :=
  tag.attributes.mapError .reference

/-- The value of an attribute that may be absent. -/
def optional (tag : Tag) (key : String) : Result (Option String) :=
  (attributesOf tag).map (·.lookup key)

/-- The value of an attribute that has to be there. -/
def required (tag : Tag) (element key : String) : Result String := do
  match ← optional tag key with
  | some value => return value
  | none => throw (.missingAttribute element key)

/-- The end of an element. Nothing but its end tag will do. -/
def finish (element : String) : Ending → Result Unit
  | .closed => .ok ()
  | .endOfText => .error (.layout (.unterminated element))
  | .fault fault => .error (.markup fault)

/-- The value of a list of decimal digits, which is not empty and fits 64
    bits. -/
def wordOfDigits? (digits : List Char) : Option UInt64 :=
  if digits.isEmpty || !digits.all Char.isDigit then none
  else
    let n := digits.foldl (fun n c => 10 * n + (c.toNat - '0'.toNat)) 0
    if n < UInt64.size then some (UInt64.ofNat n) else none

/-- The array length a text writes: digits, with a plus sign at most. -/
def lengthOf? (text : String) : Option UInt64 :=
  match text.toList with
  | '+' :: digits => wordOfDigits? digits
  | digits => wordOfDigits? digits

/-- The truth value a text writes. -/
def truthOf? (text : String) : Option Bool :=
  if text = "true" ∨ text = "1" then some true
  else if text = "false" ∨ text = "0" then some false
  else none

/-- The value of an attribute that has to mean something. -/
def interpret {α : Type} (element key : String) (meaning? : String → Option α)
    (text : String) : Result α :=
  match meaning? text with
  | some value => .ok value
  | none => .error (.invalidAttribute element key text)

/-- The length of an array. -/
def readLength (tag : Tag) : Result UInt64 := do
  interpret "array" "len" lengthOf? (← required tag "array" "len")

/-- The direction of a channel, two-way when none is given. -/
def readDirection (tag : Tag) : Result Go.Direction := do
  match ← optional tag "dir" with
  | none => return .both
  | some text => interpret "chan" "dir" Go.Direction.ofName? text

/-- The variadic mark of a function, absent when it is not given. -/
def readVariadic (tag : Tag) : Result Bool := do
  match ← optional tag "variadic" with
  | none => return false
  | some text => interpret "func" "variadic" truthOf? text

/-- A declared name with its package. A short name without a path means
    nothing. -/
def readNamed (tag : Tag) : Result Shape := do
  let name ← required tag "named" "name"
  let path ← optional tag "package"
  let short ← optional tag "packageName"
  return .named (path.map fun path => ⟨path, short⟩) name

mutual

/-- The names of the members among the contents of an element, in the order of
    the text. -/
def memberNames (context member : String) : List Element → Result (List String)
  | [] => .ok []
  | e :: rest => do
    let first ← memberName context member e
    let others ← memberNames context member rest
    return first ++ others

/-- The name of a member, followed by those of the members inside it. -/
def memberName (context member : String) : Element → Result (List String)
  | .empty tag =>
    if tag.name = member then do return [← required tag member "name"]
    else .error (.unknownElement tag.name context)
  | .node tag children ending =>
    if tag.name = member then do
      let name ← required tag member "name"
      let inner ← memberNames context member children
      finish context ending
      return name :: inner
    else .error (.unknownElement tag.name context)

end

/-- The shape of an element without contents. -/
def readEmpty (tag : Tag) : Result Shape :=
  match Kind.ofWord? tag.name with
  | none => .error (.unknownElement tag.name "type")
  | some .basic => do return .basic (← required tag "basic" "name")
  | some .named => readNamed tag
  | some .typeParam => do return .typeParam (← required tag "typeParam" "name")
  | some .unsafePointer => .ok .unsafePointer
  | some .pointer => .error (.layout (.noElementType "pointer"))
  | some .slice => .error (.layout (.noElementType "slice"))
  | some .array => do
    let _ ← readLength tag
    throw (.layout (.noElementType "array"))
  | some .chan => do
    let _ ← readDirection tag
    throw (.layout (.noElementType "chan"))
  | some .map => .error (.layout .noKeyAndValue)
  | some .func => do return .func [] [] (← readVariadic tag)
  | some .interface => .ok (.interface [])
  | some .struct => .ok (.struct [])

mutual

/-- The shape an element describes. -/
def readShapeElement : Element → Result Shape
  | .empty tag => readEmpty tag
  | .node tag children ending =>
    match Kind.ofWord? tag.name with
    | none => .error (.unknownElement tag.name "type")
    | some .basic => do
      let name ← required tag "basic" "name"
      finish "basic" ending
      return .basic name
    | some .named => do
      let shape ← readNamed tag
      finish "named" ending
      return shape
    | some .typeParam => do
      let name ← required tag "typeParam" "name"
      finish "typeParam" ending
      return .typeParam name
    | some .unsafePointer => do
      finish "unsafePointer" ending
      return .unsafePointer
    | some .pointer => do return .pointer (← readOnly "pointer" none ending children)
    | some .slice => do return .slice (← readOnly "slice" none ending children)
    | some .array => do
      let len ← readLength tag
      return .array len (← readOnly "array" none ending children)
    | some .chan => do
      let dir ← readDirection tag
      return .chan dir (← readOnly "chan" none ending children)
    | some .map => readMap none none ending children
    | some .func => do
      let variadic ← readVariadic tag
      let (params, results) ← readParams ending children
      return .func params results variadic
    | some .interface => do
      let methods ← memberNames "interface" "method" children
      finish "interface" ending
      return .interface methods
    | some .struct => do
      let fields ← memberNames "struct" "member" children
      finish "struct" ending
      return .struct fields

/-- The one shape among the contents of an element, given the shape found so
    far. A second one is read before it is refused. -/
def readOnly (element : String) (found : Option Shape) (ending : Ending) :
    List Element → Result Shape
  | [] => do
    finish element ending
    match found with
    | some shape => return shape
    | none => throw (.layout (.noType element))
  | e :: rest => do
    let shape ← readShapeElement e
    match found with
    | some _ => throw (.layout (.severalTypes element))
    | none => readOnly element (some shape) ending rest

/-- The key and the value among the contents of a map, given those found so
    far. -/
def readMap (key value : Option Shape) (ending : Ending) : List Element → Result Shape
  | [] => do
    finish "map" ending
    match key, value with
    | some key, some value => return .map key value
    | none, _ => throw (.layout .noKey)
    | _, none => throw (.layout .noValue)
  | .empty tag :: _ => .error (.layout (.childWithoutType "map" tag.name))
  | .node tag children childEnding :: rest =>
    if tag.name = "key" then do
      let shape ← readOnly "key" none childEnding children
      match key with
      | some _ => throw (.duplicate "map" "key")
      | none => readMap (some shape) value ending rest
    else if tag.name = "value" then do
      let shape ← readOnly "value" none childEnding children
      match value with
      | some _ => throw (.duplicate "map" "value")
      | none => readMap key (some shape) ending rest
    else .error (.unknownElement tag.name "map")

/-- The parameters and the results among the contents of a function. A name is
    read before it is known what it names. -/
def readParams (ending : Ending) : List Element → Result (List (Param Shape) × List (Param Shape))
  | [] => do
    finish "func" ending
    return ([], [])
  | .empty tag :: _ => .error (.layout (.childWithoutType "func" tag.name))
  | .node tag children childEnding :: rest => do
    let name ← optional tag "name"
    if tag.name = "param" then
      let type ← readOnly "param" none childEnding children
      let (params, results) ← readParams ending rest
      return (⟨name, type⟩ :: params, results)
    else if tag.name = "result" then
      let type ← readOnly "result" none childEnding children
      let (params, results) ← readParams ending rest
      return (params, ⟨name, type⟩ :: results)
    else throw (.unknownElement tag.name "func")

end

end Descriptor

end FunctionalOptions
