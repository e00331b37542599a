import FunctionalOptions.Descriptor.Json.Check
import FunctionalOptions.Descriptor.Json.Shape
import FunctionalOptions.Json.Tree

/-!
# Reading a Document

A document, its records and their fields are read in one pass, so of two faults
the one that comes first in the text is reported, and a missing field where its
object ends. Members may come in any order, unknown ones are skipped, and a
structure may also be written as the array of its fields in their order.

What is optional may be left out or `null`; what has a default may be left out.

A pass keeps slots for the fields it waits for. A field that comes a second
time finds its slot filled, and is refused without being read.

## Main definitions

* `readStructure`: The members of a structure, object or array.
* `readMembers`: Reading members into slots.
* `readDocumentTree`: The document a tree describes.
* `Document.ofJson`, `Shape.ofJson`: Reading a whole text.
-/

namespace FunctionalOptions

namespace Descriptor

open Json (Failure Stop)

/-- A text. -/
def readText (tree : Json) : Except Failure String :=
  match tree with
  | .string (some text) => .ok text
  | tree => .error (refusal tree)

/-- A text that may also be `null`. -/
def readOptionalText (tree : Json) : Except Failure (Option String) :=
  match tree with
  | .null => .ok none
  | tree => (readText tree).map some

/-- A shape, whose text is checked before it is interpreted. -/
def readShapeTree (depth : Nat) (tree : Json) : Except Failure Shape := do
  checkTagged depth tree
  match Shape.ofTree? depthLimit tree with
  | some shape => .ok shape
  | none => .error .mismatched

/-- The items of an array, each read in turn. -/
def readItems {α : Type} (read : Json → Except Failure α) : List Json → Except Failure (List α)
  | [] => .ok []
  | item :: rest => do
    let item ← read item
    let rest ← readItems read rest
    return item :: rest

/-- An array whose items are read with what depth is left inside it. -/
def readList {α : Type} (depth : Nat) (read : Nat → Json → Except Failure α) (tree : Json) :
    Except Failure (List α) :=
  match tree, depth with
  | .array _ _, 0 => .error .malformed
  | .array items stop, depth + 1 => do
    let items ← readItems (read depth) items
    ended stop
    return items
  | tree, _ => .error (refusal tree)

/-- The members of a structure with the depth left inside it. An array stands
    for the named fields in their order, and one with more items than fields is
    malformed behind the last of them. -/
def readStructure (depth : Nat) (names : List String) (tree : Json) :
    Except Failure (Nat × List (Option String × Json) × Option Stop) :=
  match tree, depth with
  | .object _ _, 0 => .error .malformed
  | .array _ _, 0 => .error .malformed
  | .object members stop, depth + 1 => .ok (depth, members, stop)
  | .array items stop, depth + 1 =>
    .ok (depth, (names.map some).zip items,
      if names.length < items.length then some .malformed else stop)
  | tree, _ => .error (refusal tree)

/-- Read members one after the other into what has been read so far. -/
def readMembers {σ : Type} (take : σ → String → Json → Except Failure σ) (sofar : σ) :
    List (Option String × Json) → Except Failure σ
  | [] => .ok sofar
  | (none, _) :: _ => .error .malformed
  | (some name, value) :: rest => do
    let sofar ← take sofar name value
    readMembers take sofar rest

/-- Fill a field that has to be empty. A second value is refused before it is
    read. -/
def fill {α : Type} (slot : Option α) (value : Except Failure α) : Except Failure (Option α) :=
  match slot with
  | some _ => .error .mismatched
  | none => value.map some

/-- A field that has to be there in the end. -/
def require {α : Type} (slot : Option α) : Except Failure α :=
  match slot with
  | some value => .ok value
  | none => .error .mismatched

/-- What has been read of a package. -/
structure PackageSlots where
  path : Option String := none
  name : Option (Option String) := none

/-- Read a member of a package. -/
def PackageSlots.take (slots : PackageSlots) (name : String) (value : Json) :
    Except Failure PackageSlots :=
  if name = "path" then do return { slots with path := ← fill slots.path (readText value) }
  else if name = "name" then do
    return { slots with name := ← fill slots.name (readOptionalText value) }
  else do
    skip value
    return slots

/-- A package. -/
def readPackageTree (depth : Nat) (tree : Json) : Except Failure Package := do
  let (_, members, stop) ← readStructure depth ["path", "name"] tree
  let slots ← readMembers PackageSlots.take {} members
  ended stop
  let path ← require slots.path
  return ⟨path, slots.name.getD none⟩

/-- What has been read of a field. -/
structure FieldSlots where
  name : Option String := none
  type : Option Shape := none
  tag : Option (Option String) := none

/-- Read a member of a field. -/
def FieldSlots.take (depth : Nat) (slots : FieldSlots) (name : String) (value : Json) :
    Except Failure FieldSlots :=
  if name = "name" then do return { slots with name := ← fill slots.name (readText value) }
  else if name = "type" then do
    return { slots with type := ← fill slots.type (readShapeTree depth value) }
  else if name = "tag" then do
    return { slots with tag := ← fill slots.tag (readOptionalText value) }
  else do
    skip value
    return slots

/-- A field of a record type. -/
def readFieldTree (depth : Nat) (tree : Json) : Except Failure Field := do
  let (depth, members, stop) ← readStructure depth ["name", "type", "tag"] tree
  let slots ← readMembers (FieldSlots.take depth) {} members
  ended stop
  let name ← require slots.name
  let type ← require slots.type
  return ⟨name, type, slots.tag.getD none⟩

/-- What has been read of a record type. -/
structure RecordSlots where
  name : Option String := none
  fields : Option (List Field) := none

/-- Read a member of a record type. -/
def RecordSlots.take (depth : Nat) (slots : RecordSlots) (name : String) (value : Json) :
    Except Failure RecordSlots :=
  if name = "name" then do return { slots with name := ← fill slots.name (readText value) }
  else if name = "fields" then do
    return { slots with fields := ← fill slots.fields (readList depth readFieldTree value) }
  else do
    skip value
    return slots

/-- A record type. -/
def readRecordTree (depth : Nat) (tree : Json) : Except Failure Record := do
  let (depth, members, stop) ← readStructure depth ["name", "fields"] tree
  let slots ← readMembers (RecordSlots.take depth) {} members
  ended stop
  let name ← require slots.name
  return ⟨name, slots.fields.getD []⟩

/-- What has been read of a document. -/
structure DocumentSlots where
  package : Option Package := none
  records : Option (List Record) := none

/-- Read a member of a document. -/
def DocumentSlots.take (depth : Nat) (slots : DocumentSlots) (name : String) (value : Json) :
    Except Failure DocumentSlots :=
  if name = "package" then do
    return { slots with package := ← fill slots.package (readPackageTree depth value) }
  else if name = "records" then do
    return { slots with records := ← fill slots.records (readList depth readRecordTree value) }
  else do
    skip value
    return slots

/-- A document. -/
def readDocumentTree (depth : Nat) (tree : Json) : Except Failure Document := do
  let (depth, members, stop) ← readStructure depth ["package", "records"] tree
  let slots ← readMembers (DocumentSlots.take depth) {} members
  ended stop
  let package ← require slots.package
  return ⟨package, slots.records.getD []⟩

/-- Read a text that holds one value and nothing else. -/
def readWhole {α : Type} (read : Json → Except Failure α) (text : String) :
    Except Failure α := do
  let (tree, rest) := Json.ofText text
  let value ← read tree
  if rest.isEmpty then return value else .error .malformed

/-- The document a JSON text describes. -/
def Document.ofJson (text : String) : Except Failure Document :=
  readWhole (readDocumentTree depthLimit) text

/-- The shape a JSON text describes. -/
def Shape.ofJson (text : String) : Except Failure Shape :=
  readWhole (readShapeTree depthLimit) text

end Descriptor

end FunctionalOptions
