import FunctionalOptions.Descriptor.Basic
import FunctionalOptions.Json.Text

/-!
# Writing a Document

Documents are written as objects with their members in a fixed order, the kind
of a shape in front of its fields. An optional field that is absent is left
out; a field with a default is always written.

## Main definitions

* `Shape.toTree`, `Document.toTree`: The trees of shapes and documents.
* `Shape.toJson`, `Document.toJson`: Their compact texts.
-/

namespace FunctionalOptions

namespace Descriptor

/-- A member for a text that may be absent. -/
def optionalMember (name : String) : Option String → List (String × Json)
  | none => []
  | some text => [(name, Json.str text)]

/-- The tree of a package. -/
def Package.toTree (package : Package) : Json :=
  .obj (("path", .str package.path) :: optionalMember "name" package.name)

/-- The tree of a list of texts. -/
def textsTree (texts : List String) : Json :=
  .arr (texts.map Json.str)

namespace Shape

/-- The tree of a shape of the given kind. -/
def tree (kind : Kind) (fields : List (String × Json)) : Json :=
  .obj (("kind", .str kind.word) :: fields)

mutual

/-- The tree of a shape. -/
def toTree : Shape → Json
  | .basic name => tree .basic [("name", .str name)]
  | .named package name =>
    tree .named ((match package with
      | none => []
      | some package => [("package", package.toTree)]) ++ [("name", .str name)])
  | .pointer elem => tree .pointer [("elem", elem.toTree)]
  | .array len elem => tree .array [("len", .ofNat len.toNat), ("elem", elem.toTree)]
  | .slice elem => tree .slice [("elem", elem.toTree)]
  | .chan dir elem => tree .chan [("dir", .str dir.word), ("elem", elem.toTree)]
  | .map key value => tree .map [("key", key.toTree), ("value", value.toTree)]
  | .func params results variadic =>
    tree .func [("params", .arr (paramTrees params)), ("results", .arr (paramTrees results)),
      ("variadic", .bool variadic)]
  | .interface methods => tree .interface [("methods", textsTree methods)]
  | .struct fields => tree .struct [("fields", textsTree fields)]
  | .typeParam name => tree .typeParam [("name", .str name)]
  | .unsafePointer => tree .unsafePointer []

/-- The trees of parameters. -/
def paramTrees : List (Param Shape) → List Json
  | [] => []
  | p :: ps => paramTree p :: paramTrees ps

/-- The tree of a parameter. -/
def paramTree : Param Shape → Json
  | ⟨name, type⟩ => .obj (optionalMember "name" name ++ [("type", type.toTree)])

end

end Shape

/-- The tree of a field. -/
def Field.toTree (field : Field) : Json :=
  .obj ([("name", .str field.name), ("type", field.type.toTree)] ++
    optionalMember "tag" field.tag)

/-- The tree of a record type. -/
def Record.toTree (record : Record) : Json :=
  .obj [("name", .str record.name), ("fields", .arr (record.fields.map Field.toTree))]

/-- The tree of a document. -/
def Document.toTree (document : Document) : Json :=
  .obj [("package", document.package.toTree),
    ("records", .arr (document.records.map Record.toTree))]

/-- The compact JSON text of a document. -/
def Document.toJson (document : Document) : String :=
  document.toTree.text

/-- The compact JSON text of a shape. -/
def Shape.toJson (shape : Shape) : String :=
  shape.toTree.text

end Descriptor

end FunctionalOptions
