import FunctionalOptions.Descriptor.Xml.Shape

/-!
# Reading a Document from Markup

A document is one `package` element with the records of the package inside it.
Text, comments and other markup around and between the elements mean nothing.

Records are read in the order of the text, and one whose name has come before
is refused once it has been read. This is the one rule that the data format
does not share: there a record may come twice, and the first one counts.

## Main definitions

* `readRecordElement`: The record an element describes.
* `Document.ofXml`: The document a text describes.
-/

namespace FunctionalOptions

namespace Descriptor

open Xml (Element Ending Tag)

/-- A field of a record. It has to have contents. -/
def readFieldElement (record : String) : Element → Result Field
  | .empty tag => .error (.layout (.fieldWithoutType tag.name record))
  | .node tag children ending =>
    if tag.name = "field" then do
      let attributes ← attributesOf tag
      match attributes.lookup "name" with
      | none => throw (.missingAttribute "field" "name")
      | some name =>
        let type ← readOnly "field" none ending children
        return ⟨name, type, attributes.lookup "tag"⟩
    else .error (.unknownElement tag.name "record")

/-- The fields of a record. -/
def readFieldElements (record : String) : List Element → Result (List Field)
  | [] => .ok []
  | e :: rest => do
    let field ← readFieldElement record e
    let fields ← readFieldElements record rest
    return field :: fields

/-- The record an element describes. -/
def readRecordElement (e : Element) : Result Record :=
  if e.tag.name = "record" then do
    let name ← required e.tag "record" "name"
    match e with
    | .empty _ => return ⟨name, []⟩
    | .node _ children ending =>
      let fields ← readFieldElements name children
      finish "record" ending
      return ⟨name, fields⟩
  else .error (.unknownElement e.tag.name "package")

/-- The records of a package, given the names that are taken. -/
def readRecordElements (taken : List String) : List Element → Result (List Record)
  | [] => .ok []
  | e :: rest => do
    let record ← readRecordElement e
    if taken.contains record.name then throw (.duplicate "record" record.name)
    let records ← readRecordElements (record.name :: taken) rest
    return record :: records

/-- The package a tag names. -/
def readPackageTag (tag : Tag) : Result Package := do
  let attributes ← attributesOf tag
  match attributes.lookup "path" with
  | none => throw (.missingAttribute "package" "path")
  | some path => return ⟨path, attributes.lookup "name"⟩

/-- The document a package element describes. -/
def readPackageElement (e : Element) : Result Document := do
  let package ← readPackageTag e.tag
  match e with
  | .empty _ => return ⟨package, []⟩
  | .node _ children ending =>
    let records ← readRecordElements [] children
    finish "package" ending
    return ⟨package, records⟩

/-- The document among the outermost elements of a text, given the one found so
    far. -/
def readElements (found : Option Document) (ending : Ending) : List Element → Result Document
  | [] =>
    match ending, found with
    | .fault fault, _ => .error (.markup fault)
    | _, some document => .ok document
    | _, none => .error (.layout .noPackage)
  | e :: rest =>
    if e.tag.name = "package" ∧ found.isNone then do
      let document ← readPackageElement e
      readElements (some document) ending rest
    else .error (.unknownElement e.tag.name "document")

/-- The document a text describes. -/
def Document.ofXml (text : String) : Result Document :=
  let document := Xml.Document.ofText text
  readElements none document.ending document.elements

end Descriptor

end FunctionalOptions
