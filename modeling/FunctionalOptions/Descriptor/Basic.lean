import FunctionalOptions.Go.Direction

/-!
# Descriptors

What an extractor says about the record types of a package. A descriptor
repeats the declarations as they are, including shapes that no option can be
generated for, and decides nothing: whether a basic type is one the language
has, or a name one that source text can hold, is settled when the descriptor is
turned into a record.

A shape is told by its kind and the fields of that kind. The kinds have fixed
words, and the fields fixed names in a fixed order, which both data formats
share.

## Main definitions

* `Descriptor.Package`: A path with the short name, where that is not implied.
* `Descriptor.Shape`: The shape of a type.
* `Descriptor.Field`, `Descriptor.Record`: A record type and its fields.
* `Descriptor.Document`: The record types of one package.
* `Descriptor.Kind`: The kinds of shapes, with their words and field names.
* `Descriptor.Shape.describe`: A shape in words, for messages.

## Theorems

* `Descriptor.Kind.ofWord?_word`: Every kind is the one its word names.
-/

namespace FunctionalOptions

namespace Descriptor

/-- A package as an extractor names it. The short name is given when it is not
    the last segment of the path. -/
structure Package where
  path : String
  name : Option String
deriving DecidableEq, Repr

/-- A parameter or result of a function shape. -/
structure Param (τ : Type) where
  name : Option String
  type : τ
deriving Repr

/-- The shape of a type. A variadic function has the slice of its last
    arguments as its last parameter. -/
inductive Shape where
  | basic (name : String)
  | named (package : Option Package) (name : String)
  | pointer (elem : Shape)
  | array (len : UInt64) (elem : Shape)
  | slice (elem : Shape)
  | chan (dir : Go.Direction) (elem : Shape)
  | map (key value : Shape)
  | func (params results : List (Param Shape)) (variadic : Bool)
  | interface (methods : List String)
  | struct (fields : List String)
  | typeParam (name : String)
  | unsafePointer
deriving Repr, Inhabited

/-- A field of a record type, with its tag if it has one. -/
structure Field where
  name : String
  type : Shape
  tag : Option String
deriving Repr

/-- A record type with its fields in the order they are declared in. -/
structure Record where
  name : String
  fields : List Field
deriving Repr

/-- The record types of one package. -/
structure Document where
  package : Package
  records : List Record
deriving Repr

/-- The first record type of a name. -/
def Document.record? (document : Document) (name : String) : Option Record :=
  document.records.find? (·.name == name)

/-- The kinds of shapes. -/
inductive Kind where
  | basic
  | named
  | pointer
  | array
  | slice
  | chan
  | map
  | func
  | interface
  | struct
  | typeParam
  | unsafePointer
deriving DecidableEq, Repr

namespace Kind

/-- The kinds in the order in which they are numbered. -/
def all : List Kind :=
  [basic, named, pointer, array, slice, chan, map, func, interface, struct, typeParam,
    unsafePointer]

/-- The word for a kind. -/
def word : Kind → String
  | basic => "basic"
  | named => "named"
  | pointer => "pointer"
  | array => "array"
  | slice => "slice"
  | chan => "chan"
  | map => "map"
  | func => "func"
  | interface => "interface"
  | struct => "struct"
  | typeParam => "typeParam"
  | unsafePointer => "unsafePointer"

/-- The kind of a word. -/
def ofWord? (word : String) : Option Kind :=
  all.find? (·.word == word)

/-- The kind of a number. -/
def ofNumber? (number : Nat) : Option Kind :=
  all[number]?

/-- The names of the fields of a kind, in order. -/
def fieldNames : Kind → List String
  | basic => ["name"]
  | named => ["package", "name"]
  | pointer => ["elem"]
  | array => ["len", "elem"]
  | slice => ["elem"]
  | chan => ["dir", "elem"]
  | map => ["key", "value"]
  | func => ["params", "results", "variadic"]
  | interface => ["methods"]
  | struct => ["fields"]
  | typeParam => ["name"]
  | unsafePointer => []

/-- Every kind is the one its word names. -/
theorem ofWord?_word (kind : Kind) : ofWord? kind.word = some kind := by
  cases kind <;> decide

/-- A word that names a kind is the word for it. -/
theorem word_of_ofWord? {word : String} {kind : Kind} (h : ofWord? word = some kind) :
    kind.word = word := by
  have := List.find?_some h
  simpa using this

end Kind

namespace Shape

/-- A shape in words. Only what is outermost is told. -/
def describe : Shape → String
  | basic name => "basic type '" ++ name ++ "'"
  | named (some package) name => "named type '" ++ package.path ++ "." ++ name ++ "'"
  | named none name => "named type '" ++ name ++ "'"
  | pointer _ => "pointer"
  | array len _ => "array of length " ++ toString len.toNat
  | slice _ => "slice"
  | chan _ _ => "channel"
  | map _ _ => "map"
  | func params _ _ => "func with " ++ toString params.length ++ " parameters"
  | interface [] => "empty interface"
  | interface methods => "interface with methods (" ++ ", ".intercalate methods ++ ")"
  | struct [] => "empty struct"
  | struct fields => "struct literal with fields (" ++ ", ".intercalate fields ++ ")"
  | typeParam name => "type parameter '" ++ name ++ "'"
  | unsafePointer => "unsafe.Pointer"

end Shape

end Descriptor

end FunctionalOptions
