import FunctionalOptions.Descriptor.Xml.Read
import FunctionalOptions.Proofs.Xml.Attributes

/-!
# Reading Past Attributes at Fault

A reader that was strict about attributes would refuse a text in which one of
them is at fault, where a value has no quotes or a key comes twice. The readers
of documents are not. They take the attributes that the search finds, and the
search keeps silent about the rest.

Put as a statement about all texts, there are no attributes at fault as far as
the readers are concerned: each text is read as if every tag in it had been
mended first, that is reduced to the attributes found in it. Errors included,
since what is missing from a mended tag was missing before.

The argument needs little of what mending is. A reader sees the name of a tag
and its expanded attributes and nothing else of it, so tags may be exchanged for
others in which these are the same.

## Main definitions

* `Element.retag`: An element with other tags in the place of its tags.
* `Unseen`: A change of tags that no reader sees.
* `Element.tags`: The tags of an element and of the elements inside it.

## Theorems

* `Unseen.readShapeElement_eq`, `Unseen.readElements_eq`: Elements are read the
  same after a change of tags that no reader sees.
* `Document.ofXml_mended`: A text is read as if its tags had been mended.
* `Document.ofXml_unquoted`: A text that is read although a value has no quotes.
-/

namespace FunctionalOptions

namespace Xml

mutual

/-- The element with other tags in the place of its tags. -/
def Element.retag (f : Tag → Tag) : Element → Element
  | .empty tag => .empty (f tag)
  | .node tag children ending => .node (f tag) (retagAll f children) ending

/-- The same for elements next to each other. -/
def retagAll (f : Tag → Tag) : List Element → List Element
  | [] => []
  | e :: rest => e.retag f :: retagAll f rest

end

mutual

/-- The tags of an element and of the elements inside it, in the order of the
    text. -/
def Element.tags : Element → List Tag
  | .empty tag => [tag]
  | .node tag children _ => tag :: tagsOfAll children

/-- The same for elements next to each other. -/
def tagsOfAll : List Element → List Tag
  | [] => []
  | e :: rest => e.tags ++ tagsOfAll rest

end

theorem Element.tag_retag (f : Tag → Tag) (e : Element) : (e.retag f).tag = f e.tag := by
  cases e <;> rfl

end Xml

namespace Descriptor

open Xml (Element Ending Tag retagAll scanAttributes survey)

/-- The function changes nothing of a tag that a reader sees. -/
structure Unseen (f : Tag → Tag) : Prop where
  name_eq : ∀ tag, (f tag).name = tag.name
  attributes_eq : ∀ tag, (f tag).attributes = tag.attributes

namespace Unseen

variable {f : Tag → Tag}

/-! ## Tags -/

section Tags

variable (hf : Unseen f) (tag : Tag)

include hf

theorem attributesOf_eq : attributesOf (f tag) = attributesOf tag := by
  rw [attributesOf, hf.attributes_eq, attributesOf]

theorem optional_eq (key : String) : optional (f tag) key = optional tag key := by
  rw [optional, hf.attributesOf_eq, optional]

theorem required_eq (element key : String) :
    required (f tag) element key = required tag element key := by
  rw [required, hf.optional_eq, required]

theorem readLength_eq : readLength (f tag) = readLength tag := by
  rw [readLength, hf.required_eq, readLength]

theorem readDirection_eq : readDirection (f tag) = readDirection tag := by
  rw [readDirection, hf.optional_eq, readDirection]

theorem readVariadic_eq : readVariadic (f tag) = readVariadic tag := by
  rw [readVariadic, hf.optional_eq, readVariadic]

theorem readNamed_eq : readNamed (f tag) = readNamed tag := by
  simp only [readNamed, hf.required_eq, hf.optional_eq]

theorem readEmpty_eq : readEmpty (f tag) = readEmpty tag := by
  simp only [readEmpty, hf.name_eq, hf.required_eq, hf.readNamed_eq, hf.readLength_eq,
    hf.readDirection_eq, hf.readVariadic_eq]

theorem readPackageTag_eq : readPackageTag (f tag) = readPackageTag tag := by
  rw [readPackageTag, hf.attributesOf_eq, readPackageTag]

end Tags

/-! ## Elements -/

-- The recursion is that of the readers: from an element to the elements inside it, and
-- from one element to those behind it.

mutual

theorem memberNames_eq (hf : Unseen f) (context member : String) : (elements : List Element) →
    memberNames context member (retagAll f elements) = memberNames context member elements
  | [] => rfl
  | e :: rest => by
      rw [retagAll, memberNames, memberName_eq hf context member e,
        memberNames_eq hf context member rest, memberNames]

theorem memberName_eq (hf : Unseen f) (context member : String) : (e : Element) →
    memberName context member (e.retag f) = memberName context member e
  | .empty tag => by
      simp only [Element.retag, memberName, hf.name_eq, hf.required_eq]
  | .node tag children ending => by
      simp only [Element.retag, memberName, hf.name_eq, hf.required_eq,
        memberNames_eq hf context member children]

end

mutual

/-- An element describes the same shape after a change that no reader sees. -/
theorem readShapeElement_eq (hf : Unseen f) : (e : Element) →
    readShapeElement (e.retag f) = readShapeElement e
  | .empty tag => by
      rw [Element.retag, readShapeElement, hf.readEmpty_eq, readShapeElement]
  | .node tag children ending => by
      simp only [Element.retag, readShapeElement, hf.name_eq, hf.required_eq, hf.readNamed_eq,
        hf.readLength_eq, hf.readDirection_eq, hf.readVariadic_eq, hf.memberNames_eq,
        readOnly_eq hf _ _ _ children, readMap_eq hf _ _ _ children, readParams_eq hf _ children]

theorem readOnly_eq (hf : Unseen f) (element : String) (found : Option Shape)
    (ending : Ending) : (elements : List Element) →
      readOnly element found ending (retagAll f elements) = readOnly element found ending elements
  | [] => rfl
  | e :: rest => by
      simp only [retagAll, readOnly, readShapeElement_eq hf e, readOnly_eq hf _ _ _ rest]

theorem readMap_eq (hf : Unseen f) (key value : Option Shape) (ending : Ending) :
    (elements : List Element) →
      readMap key value ending (retagAll f elements) = readMap key value ending elements
  | [] => rfl
  | .empty tag :: rest => by
      simp only [retagAll, Element.retag, readMap, hf.name_eq]
  | .node tag children childEnding :: rest => by
      simp only [retagAll, Element.retag, readMap, hf.name_eq, readOnly_eq hf _ _ _ children,
        readMap_eq hf _ _ _ rest]

theorem readParams_eq (hf : Unseen f) (ending : Ending) : (elements : List Element) →
    readParams ending (retagAll f elements) = readParams ending elements
  | [] => rfl
  | .empty tag :: rest => by
      simp only [retagAll, Element.retag, readParams, hf.name_eq]
  | .node tag children childEnding :: rest => by
      simp only [retagAll, Element.retag, readParams, hf.name_eq, hf.optional_eq,
        readOnly_eq hf _ _ _ children, readParams_eq hf _ rest]

end

section Elements

variable (hf : Unseen f)

include hf

theorem readFieldElement_eq (record : String) (e : Element) :
    readFieldElement record (e.retag f) = readFieldElement record e := by
  cases e with
  | empty tag => simp only [Element.retag, readFieldElement, hf.name_eq]
  | node tag children ending =>
      simp only [Element.retag, readFieldElement, hf.name_eq, hf.attributesOf_eq, hf.readOnly_eq]

theorem readFieldElements_eq (record : String) (elements : List Element) :
    readFieldElements record (retagAll f elements) = readFieldElements record elements := by
  induction elements with
  | nil => rfl
  | cons e rest ih => simp only [retagAll, readFieldElements, hf.readFieldElement_eq, ih]

theorem readRecordElement_eq (e : Element) :
    readRecordElement (e.retag f) = readRecordElement e := by
  cases e with
  | empty tag =>
      simp only [Element.retag, readRecordElement, Element.tag, hf.name_eq, hf.required_eq]
      rfl
  | node tag children ending =>
      simp only [Element.retag, readRecordElement, Element.tag, hf.name_eq, hf.required_eq,
        hf.readFieldElements_eq]
      rfl

theorem readRecordElements_eq (taken : List String) (elements : List Element) :
    readRecordElements taken (retagAll f elements) = readRecordElements taken elements := by
  induction elements generalizing taken with
  | nil => rfl
  | cons e rest ih => simp only [retagAll, readRecordElements, hf.readRecordElement_eq, ih]

theorem readPackageElement_eq (e : Element) :
    readPackageElement (e.retag f) = readPackageElement e := by
  cases e with
  | empty tag => simp only [Element.retag, readPackageElement, Element.tag, hf.readPackageTag_eq]
  | node tag children ending =>
      simp only [Element.retag, readPackageElement, Element.tag, hf.readPackageTag_eq,
        hf.readRecordElements_eq]

/-- A document is the same after a change that no reader sees. -/
theorem readElements_eq (found : Option Document) (ending : Ending) (elements : List Element) :
    readElements found ending (retagAll f elements) = readElements found ending elements := by
  induction elements generalizing found with
  | nil => rfl
  | cons e rest ih =>
      simp only [retagAll, readElements, Element.tag_retag, hf.name_eq, hf.readPackageElement_eq,
        ih]

end Elements

end Unseen

/-- No reader sees whether a tag has been mended. -/
theorem unseen_mended : Unseen Tag.mended where
  name_eq _ := rfl
  attributes_eq tag := by rw [Tag.attributes, tag.scan_mended, Tag.attributes]

/-- A text is read as if all its tags had been mended, whether a document comes out
    of it or an error. A mended tag is intact; it has its name and those
    attributes that are left of all that the search comes upon when the faults are
    dropped. There are none to drop exactly if the tag was intact before. -/
theorem Document.ofXml_mended (text : String) :
    Document.ofXml text = readElements none (Xml.Document.ofText text).ending
      (retagAll Tag.mended (Xml.Document.ofText text).elements) ∧
    ∀ tag : Tag, tag.mended.Intact ∧ tag.mended.name = tag.name ∧
      scanAttributes [] tag.mended.rest = (survey [] tag.rest).filterMap Except.toOption ∧
      (tag.Intact ↔ ∀ item ∈ survey [] tag.rest, item.isOk = true) := by
  refine ⟨?_, fun tag => ⟨tag.mended_intact, rfl, ?_, Tag.intact_iff⟩⟩
  · rw [Document.ofXml, unseen_mended.readElements_eq]
  · rw [tag.scan_mended, Xml.scanAttributes_eq_survey]

/-- A field to be left out, but for the quotes around its tag. -/
def Document.unquotedXml : String :=
  "<package path=\"p\"><record name=\"R\"><field name=\"F\" tag=gooptions:\"-\">" ++
    "<basic name=\"int\"/></field></record></package>"

/-- The value of an attribute of the field has no quotes, and the text is read as
    if there were no such attribute. -/
theorem Document.ofXml_unquoted :
    (∃ tag ∈ Xml.tagsOfAll (Xml.Document.ofText unquotedXml).elements, tag.name = "field" ∧
      .error (.notQuoted "tag".toList) ∈ survey [] tag.rest ∧ ¬tag.Intact) ∧
    ((Document.ofXml unquotedXml).map fun document => document.records.map fun record =>
      record.fields.map fun field => (field.name, field.tag)) = .ok [[("F", none)]] := by
  have htext : unquotedXml.toList = _ := Text.toList_append_eq rfl (Text.toList_eq rfl)
  constructor
  · -- Whether a tag is intact can be computed once it is put as a search for faults.
    simp only [Tag.intact_iff]
    rw [Xml.Document.ofText, htext]
    decide +kernel
  · rw [Document.ofXml, Xml.Document.ofText, htext]
    decide +kernel

end Descriptor

end FunctionalOptions
