import FunctionalOptions.Go.StructTag
import FunctionalOptions.Record.Basic
import FunctionalOptions.Record.RecordError

/-!
# From Descriptors to Records

A shape becomes the type it stands for, if there is one. Struct and interface
literals have a type only when they are empty, type parameters and unsafe
pointers have none, and a basic shape has to name a type the language declares
itself. The two aliases among those keep their own names, since a reader of the
generated file expects to find the name that the field was declared with.

A shape is gone through from the outside in and from left to right, and the
first part without a type fails the whole field. For a variadic function the
last parameter comes after the others and before the results; it has to be a
slice, and becomes a parameter of the element type.

The tag of a field is read once its type is known to exist, so what a tag
reports is reported field by field.

## Main definitions

* `Go.isPredeclared`: The name belongs to a type that the language declares.
* `Go.TypeExpr.ofShape`: The type that a shape stands for.
* `Record.ofDescriptor`: The record that a descriptor describes.
-/

namespace FunctionalOptions

namespace Go

/-- The types that the language declares, without the aliases. -/
def primitiveKinds : List String :=
  ["bool", "string", "int", "int8", "int16", "int32", "int64", "uint", "uint8", "uint16",
    "uint32", "uint64", "uintptr", "float32", "float64", "complex64", "complex128"]

/-- The alias for a single byte. -/
def byteAlias : String := "byte"

/-- The alias for a single code point. -/
def runeAlias : String := "rune"

/-- The name belongs to a type that the language declares: a primitive kind, an
    alias for one, or `any`. -/
def isPredeclared (name : String) : Bool :=
  name = byteAlias || name = runeAlias || primitiveKinds.contains name || name = "any"

/-- The package that a descriptor names. -/
def Package.ofDescriptor (package : Descriptor.Package) : Package :=
  match package.name with
  | some name => ⟨package.path, name⟩
  | none => .ofPath package.path

namespace TypeExpr

mutual

/-- The type that a shape stands for. The path names the field in errors. -/
def ofShape (path : String) : Descriptor.Shape → Except RecordError TypeExpr
  | .named (some package) name => .ok (.named (some (.ofDescriptor package)) name)
  | .named none name =>
    .ok (if name = "error" then .predeclared "error" else .named none name)
  | .basic name =>
    if isPredeclared name then .ok (.predeclared name)
    else .error (.unsupported path (.shape (.basic name)))
  | .pointer elem => do return .pointer (← ofShape path elem)
  | .array len elem => do return .array len (← ofShape path elem)
  | .slice elem => do return .slice (← ofShape path elem)
  | .chan dir elem => do return .channel dir (← ofShape path elem)
  | .map key value => do
    let key ← ofShape path key
    let value ← ofShape path value
    return .map key value
  | .func params results variadic =>
    if variadic && params.isEmpty then .error (.unsupported path .variadicWithoutParameters)
    else do
      let inputs ← inputsOf path variadic params
      let outputs ← inputsOf path false results
      return .func inputs outputs
  | .interface [] => .ok (.predeclared "interface\x7b\x7d")
  | .struct [] => .ok (.predeclared "struct\x7b\x7d")
  | .interface (m :: ms) => .error (.unsupported path (.shape (.interface (m :: ms))))
  | .struct (f :: fs) => .error (.unsupported path (.shape (.struct (f :: fs))))
  | .typeParam name => .error (.unsupported path (.shape (.typeParam name)))
  | .unsafePointer => .error (.unsupported path (.shape .unsafePointer))

/-- The parameters that descriptors of parameters stand for, the last of them
    variadic if so marked. -/
def inputsOf (path : String) (variadic : Bool) :
    List (Descriptor.Param Descriptor.Shape) → Except RecordError (List (Param TypeExpr))
  | [] => .ok []
  | [p] => do
    let last ← if variadic then lastOf path p else paramOf path p
    return [last]
  | p :: q :: rest => do
    let first ← paramOf path p
    let others ← inputsOf path variadic (q :: rest)
    return first :: others

/-- A parameter that is not variadic. -/
def paramOf (path : String) :
    Descriptor.Param Descriptor.Shape → Except RecordError (Param TypeExpr)
  | ⟨name, type⟩ => do return ⟨name, ← ofShape path type, false⟩

/-- A variadic parameter, described by the slice of its arguments. -/
def lastOf (path : String) :
    Descriptor.Param Descriptor.Shape → Except RecordError (Param TypeExpr)
  | ⟨name, .slice elem⟩ => do return ⟨name, ← ofShape path elem, true⟩
  | ⟨_, type⟩ => .error (.unsupported path (.variadicWithoutSlice type))

end

end TypeExpr

end Go

namespace Record

/-- The field that a descriptor describes. -/
def Field.ofDescriptor (record : String) (field : Descriptor.Field) : Logged RecordError Field := do
  let type ← .ofExcept (Go.TypeExpr.ofShape (record ++ "." ++ field.name) field.type)
  let ignored ← match field.tag with
    | none => pure false
    | some tag => Go.StructTag.read tag
  return ⟨field.name, type, ignored⟩

/-- The fields that a list of descriptors describes. -/
def fieldsOfDescriptor (record : String) :
    List Descriptor.Field → Logged RecordError (List Field)
  | [] => pure []
  | field :: rest => do
    let field ← Field.ofDescriptor record field
    let fields ← fieldsOfDescriptor record rest
    return field :: fields

/-- The record that a descriptor describes. -/
def ofDescriptor (record : Descriptor.Record) : Logged RecordError Record := do
  let fields ← fieldsOfDescriptor record.name record.fields
  return ⟨record.name, fields⟩

end Record

end FunctionalOptions
