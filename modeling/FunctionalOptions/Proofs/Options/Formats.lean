import FunctionalOptions.Options.Generate
import FunctionalOptions.Proofs.Descriptor.ReadMarkup
import FunctionalOptions.Proofs.Descriptor.RoundTrip
import Mathlib.Data.List.Induction
import Mathlib.Data.List.Nodup

/-!
# The Two Formats

What a run makes of one document in either format. Once a document is read
nothing reminds of the format, so the two runs are the same run as soon as both
formats give the document back.

They do for documents with different record names. Of record types with one name
the data format takes the first, while the other format takes none, so there a
run fails that would not have failed on the other text.

## Theorems

* `generateFromText_of_read`: A run depends on the document that is read.
* `exists_repeated`: Names that are not different have a first one that has come
  before.
* `generateFromText_formats`: The formats are interchangeable for documents with
  different record names, and one of them refuses all others.
* `generateFromText_formats_differ`: They are not interchangeable in general.
-/

namespace FunctionalOptions

section Runs

variable {format : Descriptor.Format} {text : String}

/-- A run depends on the document that is read, and not on its text. -/
theorem generateFromText_of_read {document : Descriptor.Document}
    (h : format.read text = .ok document) (name : String) (settings : Settings) :
    generateFromText format text name settings = document.generate name settings := by
  rw [generateFromText, h]
  rfl

/-- A run fails on a text that is not read. -/
theorem result_generateFromText_of_error {error : Descriptor.ReadError}
    (h : format.read text = .error error) (name : String) (settings : Settings) :
    (generateFromText format text name settings).result = .error (.descriptor error) := by
  rw [generateFromText, h]
  rfl

end Runs

namespace Descriptor

/-- Of record types that do not have different names there is a first one whose
    name has come before. -/
theorem exists_repeated {records : List Record} (h : ¬(records.map Record.name).Nodup) :
    ∃ before record after, records = before ++ record :: after ∧
      (before.map Record.name).Nodup ∧ record.name ∈ before.map Record.name := by
  induction records using List.reverseRecOn with
  | nil => exact absurd List.nodup_nil h
  | append_singleton records record ih =>
      by_cases hnodup : (records.map Record.name).Nodup
      · -- Then it is the last one that repeats a name.
        have hmem : record.name ∈ records.map Record.name := by
          by_contra hmem
          refine h ?_
          rw [List.map_append, List.map_singleton, List.nodup_append_comm, List.singleton_append]
          exact List.nodup_cons.mpr ⟨hmem, hnodup⟩
        exact ⟨records, record, [], rfl, hnodup, hmem⟩
      · -- Otherwise one has been repeated before, and the last one only stands behind it.
        rcases ih hnodup with ⟨before, repeated, after, rfl, hbefore, hmem⟩
        refine ⟨before, repeated, after ++ [record], ?_, hbefore, hmem⟩
        rw [List.append_assoc, List.cons_append]

namespace Document

variable {document : Document} {text : String}

/-- A document in the data format gives the run of the document, if it does not
    nest too deep to be read. -/
theorem generateFromText_toJson (document : Document) (h : document.toTree.nesting ≤ depthLimit)
    (name : String) (settings : Settings) :
    generateFromText .json document.toJson name settings = document.generate name settings := by
  refine generateFromText_of_read ?_ name settings
  rw [Format.read, document.read_toJson h]
  rfl

/-- So does any text of its element, if the record names are different. -/
theorem WrittenXml.generateFromText_eq (h : document.WrittenXml text)
    (hnodup : (document.records.map Record.name).Nodup) (name : String) (settings : Settings) :
    generateFromText .xml text name settings = document.generate name settings := by
  refine generateFromText_of_read ?_ name settings
  rw [Format.read, h.ofXml_eq, firstRepeated?_eq_none hnodup fun _ _ => List.not_mem_nil]

/-- If they are not, it gives a failure that names the first repeated one. -/
theorem WrittenXml.result_of_repeated (h : document.WrittenXml text) {before after : List Record}
    {record : Record} (hrecords : document.records = before ++ record :: after)
    (hnodup : (before.map Record.name).Nodup) (hmem : record.name ∈ before.map Record.name)
    (name : String) (settings : Settings) :
    (generateFromText .xml text name settings).result =
      .error (.descriptor (.duplicate "record" record.name)) := by
  refine result_generateFromText_of_error ?_ name settings
  rw [Format.read, h.ofXml_eq, hrecords, List.map_append, List.map_cons,
    firstRepeated?_eq_some hnodup (fun _ _ => List.not_mem_nil) (Or.inl hmem)]

end Document

end Descriptor

/-- The formats are interchangeable for a document with different record names:
    whatever text it has, the run is the one over its text in the data format. A
    document in which a name is repeated is refused in one of them, and what is
    named is the first repeated name. -/
theorem generateFromText_formats (document : Descriptor.Document)
    (hdepth : document.toTree.nesting ≤ 127) (text : String) (htext : document.WrittenXml text)
    (name : String) (settings : Settings) :
    ((document.records.map Descriptor.Record.name).Nodup →
      generateFromText .xml text name settings =
        generateFromText .json document.toJson name settings) ∧
    (¬(document.records.map Descriptor.Record.name).Nodup →
      ∃ before record after, document.records = before ++ record :: after ∧
        (before.map Descriptor.Record.name).Nodup ∧
        record.name ∈ before.map Descriptor.Record.name ∧
        (generateFromText .xml text name settings).result =
          .error (.descriptor (.duplicate "record" record.name))) := by
  constructor
  · intro hnodup
    rw [htext.generateFromText_eq hnodup, document.generateFromText_toJson hdepth]
  · intro hrepeated
    rcases Descriptor.exists_repeated hrepeated with ⟨before, record, after, hrecords, hnodup, hmem⟩
    exact ⟨before, record, after, hrecords, hnodup, hmem,
      htext.result_of_repeated hrecords hnodup hmem name settings⟩

/-- A document with two record types of one name. -/
def Descriptor.Document.twins : Document :=
  ⟨⟨"example.com/shop", none⟩, [⟨"Item", [⟨"Name", .basic "string", none⟩]⟩, ⟨"Item", []⟩]⟩

/-- The document as a text. -/
def Descriptor.Document.twinsXml : String :=
  "<package path=\"example.com/shop\"><record name=\"Item\"><field name=\"Name\">" ++
    "<basic name=\"string\"/></field></record><record name=\"Item\"/></package>"

open Xml in
theorem Descriptor.Document.writtenXml_twins : twins.WrittenXml twinsXml := by
  have hbasic : Written [.element "basic" [("name", "string")] []] _ :=
    .empty .nil (.single (by decide) (by decide) (by decide)) (.nil .nil)
  have hfield : Written [typeNode "field" [("name", "Name")] _] _ :=
    .node .nil (.single (by decide) (by decide) (by decide)) hbasic blanks_nil (.nil .nil)
  have hsecond : Written [.element "record" [("name", "Item")] []] _ :=
    .empty .nil (.single (by decide) (by decide) (by decide)) (.nil .nil)
  have hrecords : Written [.element "record" [("name", "Item")] _,
      .element "record" [("name", "Item")] _] _ :=
    .node .nil (.single (by decide) (by decide) (by decide)) hfield blanks_nil hsecond
  have hpackage : Written [.element "package" [("path", "example.com/shop")] _] _ :=
    .node .nil (.single (by decide) (by decide) (by decide)) hrecords blanks_nil (.nil .nil)
  have htext : twinsXml.toList = _ := Text.toList_append_eq rfl (Text.toList_eq rfl)
  exact .intro (.intro (.cons (.intro (.cons (.intro (.basic "string")) .nil))
    (.cons (.intro .nil) .nil))) .none hpackage (htext.trans (by decide))

theorem generateFromText_formats_gallery :
    (Descriptor.Document.gallery.toTree.nesting ≤ 127 ∧
      (Descriptor.Document.gallery.records.map Descriptor.Record.name).Nodup ∧
      Descriptor.Document.gallery.WrittenXml Descriptor.Document.galleryXml ∧
      generateFromText .xml Descriptor.Document.galleryXml "Piece" {} =
        generateFromText .json Descriptor.Document.gallery.toJson "Piece" {} ∧
      (generateFromText .xml Descriptor.Document.galleryXml "Piece" {}).result.isOk = true) ∧
    (generateFromText .xml Descriptor.Document.twinsXml "Item" {}).result.isOk = false := by
  constructor
  · have hdepth : Descriptor.Document.gallery.toTree.nesting ≤ 127 := by
      decide
    have hnodup : (Descriptor.Document.gallery.records.map Descriptor.Record.name).Nodup := by
      decide
    have htext := Descriptor.Document.writtenXml_gallery
    refine ⟨hdepth, hnodup, htext,
      (generateFromText_formats _ hdepth _ htext "Piece" {}).1 hnodup, ?_⟩
    rw [htext.generateFromText_eq hnodup]
    decide +kernel
  · have hrepeated : ¬(Descriptor.Document.twins.records.map Descriptor.Record.name).Nodup := by
      decide
    rcases (generateFromText_formats _ (by decide) _ Descriptor.Document.writtenXml_twins
      "Item" {}).2 hrepeated with ⟨_, _, _, _, _, _, hresult⟩
    rw [hresult]
    rfl

/-- The formats are not interchangeable in general. Where a record name is
    repeated, one run may give a file and the other none. -/
theorem generateFromText_formats_differ :
    ¬∀ (document : Descriptor.Document) (text name : String) (settings : Settings),
      document.toTree.nesting ≤ 127 → document.WrittenXml text →
      (generateFromText .xml text name settings).result.toOption =
        (generateFromText .json document.toJson name settings).result.toOption := by
  intro h
  have hdepth : Descriptor.Document.twins.toTree.nesting ≤ 127 := by
    decide
  have htext := Descriptor.Document.writtenXml_twins
  have hsame := h _ _ "Item" {} hdepth htext
  -- The second record is refused in the element, and is passed over in the object.
  have hrefused := @Descriptor.Document.WrittenXml.result_of_repeated _ _ htext
    [⟨"Item", [⟨"Name", .basic "string", none⟩]⟩] [] ⟨"Item", []⟩ rfl (by decide) (by decide)
    "Item" {}
  have hfile : (Descriptor.Document.twins.generate "Item" {}).result.toOption.isSome = true := by
    decide
  rw [hrefused, Descriptor.Document.generateFromText_toJson _ hdepth] at hsame
  rw [← hsame] at hfile
  exact absurd hfile Bool.false_ne_true

end FunctionalOptions
