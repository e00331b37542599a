import FunctionalOptions.Descriptor.Basic
import FunctionalOptions.Json.Number

/-!
# Shapes from Trees

The shape that a JSON tree describes, for a tree whose text is known to be in
order. Only the fact that something does not fit is left to tell then, so the
reading is one of options and has no order of faults.

A shape is an object with its kind and the fields of the kind, in any order.
Unknown members do not matter and none may come twice. It may also be written
as an array of the kind and the fields in their order, of which the last ones
may be missing. A shape inside another may give its kind by number.

## Main definitions

* `Contents`: The contents of an object or array.
* `tagged?`: The kind of a shape with its other contents.
* `Shape.ofFields?`: The shape of a kind with given fields.
* `Shape.ofTree?`: The shape of a tree.
-/

namespace FunctionalOptions

namespace Descriptor

/-- The text of a string. -/
def text? : Json → Option String
  | .string text => text
  | _ => none

/-- A value that may also be `null`. -/
def optional? {α : Type} (read? : Json → Option α) : Json → Option (Option α)
  | .null => some none
  | tree => (read? tree).map some

/-- The items of an array. -/
def list? {α : Type} (read? : Json → Option α) : Json → Option (List α)
  | .array items _ => items.mapM read?
  | _ => none

/-- The value of a Boolean. -/
def bool? : Json → Option Bool
  | .bool b => some b
  | _ => none

/-- An array length, which is a 64-bit natural number. -/
def length? : Json → Option UInt64
  | .number literal => (Json.natural? literal).map UInt64.ofNat
  | _ => none

/-- A direction: its word, or an object with the word as its only name and
    nothing behind it. -/
def direction? : Json → Option Go.Direction
  | .string (some word) => Go.Direction.ofWord? word
  | .object [(some word, .null)] _ => Go.Direction.ofWord? word
  | .object [(some word, .object [] _)] _ => Go.Direction.ofWord? word
  | _ => none

/-- A kind, by its word or by its number. -/
def kind? : Json → Option Kind
  | .string (some word) => Kind.ofWord? word
  | .number literal => (Json.natural? literal).bind Kind.ofNumber?
  | _ => none

/-- The contents of a structure: its members, or its items in order. -/
inductive Contents where
  | members (members : List (Option String × Json))
  | items (items : List Json)

/-- The contents of an object or array. -/
def contents? : Json → Option Contents
  | .object members _ => some (.members members)
  | .array items _ => some (.items items)
  | _ => none

/-- The value of a name that comes up once at most. -/
def unique? (name : String) (members : List (Option String × Json)) : Option (Option Json) :=
  match members.filter (·.1 == some name) with
  | [] => some none
  | [(_, value)] => some (some value)
  | _ => none

/-- The values of the named fields, in order. Items are as many as there are
    names at most. -/
def Contents.fields? (names : List String) : Contents → Option (List (Option Json))
  | .members entries => names.mapM (unique? · entries)
  | .items values =>
    if values.length ≤ names.length then
      some (values.map some ++ List.replicate (names.length - values.length) none)
    else none

/-- The value of a field, or the default when it is missing. -/
def orDefault {α : Type} (default : α) (read? : Json → Option α) (field : Option Json) :
    Option α :=
  match field with
  | none => some default
  | some tree => read? tree

/-- The kind of a shape and its other contents. -/
def tagged? (tree : Json) : Option (Kind × Contents) :=
  match contents? tree with
  | none => none
  | some (.items []) => none
  | some (.items (first :: rest)) => (kind? first).map (·, .items rest)
  | some (.members members) =>
    match unique? "kind" members with
    | some (some value) =>
      (kind? value).map (·, .members (members.filter (·.1 != some "kind")))
    | _ => none

/-- The package a checked tree describes. -/
def Package.ofTree? (tree : Json) : Option Package := do
  match ← (← contents? tree).fields? ["path", "name"] with
  | [path, name] =>
    let path ← path.bind text?
    let name ← orDefault none (optional? text?) name
    return ⟨path, name⟩
  | _ => none

/-- The parameter a checked tree describes. -/
def Param.ofTree? (shape? : Json → Option Shape) (tree : Json) : Option (Param Shape) := do
  match ← (← contents? tree).fields? ["name", "type"] with
  | [name, type] =>
    let name ← orDefault none (optional? text?) name
    let type ← type.bind shape?
    return ⟨name, type⟩
  | _ => none

/-- The shape of a kind with the given fields. -/
def Shape.ofFields? (shape? : Json → Option Shape) (kind : Kind) (fields : List (Option Json)) :
    Option Shape :=
  match kind, fields with
  | .basic, [name] => do return .basic (← name.bind text?)
  | .named, [package, name] => do
    let package ← orDefault none (optional? Package.ofTree?) package
    let name ← name.bind text?
    return .named package name
  | .pointer, [elem] => do return .pointer (← elem.bind shape?)
  | .array, [len, elem] => do
    let len ← len.bind length?
    let elem ← elem.bind shape?
    return .array len elem
  | .slice, [elem] => do return .slice (← elem.bind shape?)
  | .chan, [dir, elem] => do
    let dir ← orDefault .both direction? dir
    let elem ← elem.bind shape?
    return .chan dir elem
  | .map, [key, value] => do
    let key ← key.bind shape?
    let value ← value.bind shape?
    return .map key value
  | .func, [params, results, variadic] => do
    let params ← orDefault [] (list? (Param.ofTree? shape?)) params
    let results ← orDefault [] (list? (Param.ofTree? shape?)) results
    let variadic ← orDefault false bool? variadic
    return .func params results variadic
  | .interface, [methods] => do return .interface (← orDefault [] (list? text?) methods)
  | .struct, [fields] => do return .struct (← orDefault [] (list? text?) fields)
  | .typeParam, [name] => do return .typeParam (← name.bind text?)
  | .unsafePointer, [] => some .unsafePointer
  | _, _ => none

/-- The shape a checked tree describes. Shapes nest at most `depth` deep. -/
def Shape.ofTree? : Nat → Json → Option Shape
  | 0, _ => none
  | depth + 1, tree => do
    let (kind, contents) ← tagged? tree
    let fields ← contents.fields? kind.fieldNames
    Shape.ofFields? (Shape.ofTree? depth) kind fields

end Descriptor

end FunctionalOptions
