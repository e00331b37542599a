import FunctionalOptions.Proofs.Descriptor.Accepted
import FunctionalOptions.Proofs.Descriptor.ReadShape

/-!
# Reading Documents from Their Elements

A document is read from any text that has its element, however the text was
written. The elements of the text have the names and attributes they were
written for, and from there on each reader is followed through what the elements
of its structure can be.

Record types with the same name are refused, and this is the only thing about a
document that is. The one that is named is the first whose name has come before.

## Main definitions

* `firstRepeated?`: The first of some names that has come before.

## Theorems

* `fitsFields_of_conveys`, `fitsRecord_of_conveys`: Fields and record types are
  written for what they are.
* `readRecordElements_eq`: Record types are read up to a repeated name.
* `Document.WrittenXml.ofXml_eq`: A document is read from its texts unless a
  record name is repeated.
* `Document.ofXml_writtenXml`: Every document has texts, and one with different
  record names is read from every one of them.
-/

namespace FunctionalOptions

namespace Descriptor

open Xml (blanks_nil blanks_space Conveys Element Node Tag WrittenTag WrittenValue
  writtenValue_self)

/-! ## Record types -/

/-- A field is written as one. -/
theorem fitsField_of_conveys {node : Node} {field : Field} (h : DescribesField node field)
    {nodes : List Node} {elements : List Element} (helements : Conveys (node :: nodes) elements) :
    ∃ e others, elements = e :: others ∧ FitsField AllMembers e field ∧ Conveys nodes others := by
  obtain ⟨htype⟩ := h
  rcases htype.writtenFor.wraps helements with ⟨e, others, tag, type, rfl, hwraps, htag, hfits,
    hrest⟩
  have hname : optional tag "name" = .ok (some field.name) := optional_eq htag "name"
  have hmark : optional tag "tag" = .ok field.tag :=
    (optional_eq htag "tag").trans (congrArg Except.ok (lookup_optionalAttribute "tag" field.tag))
  exact ⟨e, others, rfl, ⟨tag, type, hwraps, hname, hmark, hfits⟩, hrest⟩

/-- The fields of a record type are written in their order. -/
theorem fitsFields_of_conveys {nodes : List Node} {fields : List Field}
    (h : List.Forall₂ DescribesField nodes fields) {elements : List Element}
    (helements : Conveys nodes elements) :
    List.Forall₂ (FitsField AllMembers) elements fields := by
  induction h generalizing elements with
  | nil =>
      cases helements
      exact .nil
  | cons hfield _ ih =>
      rcases fitsField_of_conveys hfield helements with ⟨e, others, rfl, hfits, hothers⟩
      exact .cons hfits (ih hothers)

/-- A record type is written as one. -/
theorem fitsRecord_of_conveys {node : Node} {record : Record} (h : DescribesRecord node record)
    {nodes : List Node} {elements : List Element} (helements : Conveys (node :: nodes) elements) :
    ∃ e others, elements = e :: others ∧ FitsRecord AllMembers e record ∧
      Conveys nodes others := by
  obtain @⟨record, fields, hfields⟩ := h
  rcases holds_of_conveys helements with ⟨e, others, tag, inside, rfl, hholds, htag, hinside, hrest⟩
  have hname : optional tag "name" = .ok (some record.name) := optional_eq htag "name"
  exact ⟨e, others, rfl,
    ⟨tag, inside, hholds, htag.name_eq, hname, fitsFields_of_conveys hfields hinside⟩, hrest⟩

/-- The first of some names that is taken or has come before. -/
def firstRepeated? (taken : List String) : List String → Option String
  | [] => none
  | name :: names =>
    if taken.contains name then some name else firstRepeated? (name :: taken) names

/-- No name is repeated if the names are different, and none of them taken. -/
theorem firstRepeated?_eq_none {taken names : List String} (hnodup : names.Nodup)
    (htaken : ∀ name ∈ names, name ∉ taken) : firstRepeated? taken names = none := by
  induction names generalizing taken with
  | nil => rfl
  | cons name names ih =>
      rw [List.nodup_cons] at hnodup
      rw [List.forall_mem_cons] at htaken
      rw [firstRepeated?, if_neg (by simpa using htaken.1)]
      exact ih hnodup.2 (forall_not_mem_cons hnodup.1 htaken.2)

/-- The first name that has come before comes behind different ones. -/
theorem firstRepeated?_eq_some {taken before after : List String} {name : String}
    (hnodup : before.Nodup) (htaken : ∀ other ∈ before, other ∉ taken)
    (hname : name ∈ before ∨ name ∈ taken) :
    firstRepeated? taken (before ++ name :: after) = some name := by
  induction before generalizing taken with
  | nil =>
      have hmem : name ∈ taken := hname.resolve_left List.not_mem_nil
      rw [List.nil_append, firstRepeated?, if_pos (List.contains_iff_mem.mpr hmem)]
  | cons first before ih =>
      rw [List.nodup_cons] at hnodup
      rw [List.forall_mem_cons] at htaken
      rw [List.cons_append, firstRepeated?, if_neg (by simpa using htaken.1)]
      refine ih hnodup.2 (forall_not_mem_cons hnodup.1 htaken.2) ?_
      -- The name that repeats the first one is taken from here on.
      rw [List.mem_cons] at hname ⊢
      tauto

/-- The record types of a package are read in their order, up to the first one
    whose name has come before. -/
theorem readRecordElements_eq {nodes : List Node} {records : List Record}
    (h : List.Forall₂ DescribesRecord nodes records) {elements : List Element}
    (helements : Conveys nodes elements) (taken : List String) :
    readRecordElements taken elements =
      match firstRepeated? taken (records.map Record.name) with
      | none => .ok records
      | some name => .error (.duplicate "record" name) := by
  induction h generalizing elements taken with
  | nil =>
      cases helements
      rfl
  | @cons node record nodes records hrecord _ ih =>
      rcases fitsRecord_of_conveys hrecord helements with ⟨e, others, rfl, hfits, hothers⟩
      rw [readRecordElements, readRecordElement_eq_ok_iff.mpr hfits, List.map_cons, firstRepeated?]
      show (if taken.contains record.name then _ else _) = _
      -- The name is looked for once the record type has been read.
      by_cases hmem : taken.contains record.name = true
      · rw [if_pos hmem, if_pos hmem]
        rfl
      · rw [if_neg hmem, if_neg hmem]
        show (readRecordElements (record.name :: taken) others).bind _ = _
        rw [ih hothers]
        cases firstRepeated? (record.name :: taken) (records.map Record.name) <;> rfl

/-! ## Documents -/

theorem readPackageTag_eq {tag : Tag} {package : Package} (h : tag.Has "package"
    (("path", package.path) :: optionalAttribute "name" package.name)) :
    readPackageTag tag = .ok package := by
  have hpath : optional tag "path" = .ok (some package.path) := optional_eq h "path"
  have hname : optional tag "name" = .ok package.name :=
    (optional_eq h "name").trans (congrArg Except.ok (lookup_optionalAttribute "name" package.name))
  exact readPackageTag_eq_ok_iff.mpr ⟨hpath, hname⟩

/-- A text of a document is read up to the first record type whose name has come
    before, and as the document if there is none. -/
theorem Document.WrittenXml.ofXml_eq {document : Document} {text : String}
    (h : document.WrittenXml text) :
    Document.ofXml text =
      match firstRepeated? [] (document.records.map Record.name) with
      | none => .ok document
      | some name => .error (.duplicate "record" name) := by
  obtain ⟨hnode, hprolog, hwritten, htext⟩ := h
  obtain @⟨document, records, hrecords⟩ := hnode
  rcases hwritten.ofText_eq hprolog htext with ⟨elements, helements, hread⟩
  rw [Document.ofXml, hread]
  cases helements with
  | @empty _ _ tag _ others htag hrest =>
      -- One tag stands for a package without record types.
      rcases document with ⟨package, documentRecords⟩
      cases hrest
      cases hrecords
      rw [readElements, if_pos ⟨htag.name_eq, rfl⟩, readPackageElement, Element.tag,
        readPackageTag_eq htag]
      rfl
  | @node _ _ _ tag inside _ others htag hinside hrest =>
      cases hrest
      rw [readElements, if_pos ⟨htag.name_eq, rfl⟩, readPackageElement, Element.tag,
        readPackageTag_eq htag]
      show ((readRecordElements [] inside).bind _).bind _ = _
      rw [readRecordElements_eq hrecords hinside]
      cases firstRepeated? [] (document.records.map Record.name) <;> rfl

/-- Every document has texts, and one with different record names is read from
    every one of them. -/
theorem Document.ofXml_writtenXml (document : Document) :
    (∃ text, document.WrittenXml text) ∧
      ((document.records.map Record.name).Nodup →
        ∀ text, document.WrittenXml text → Document.ofXml text = .ok document) := by
  refine ⟨document.exists_writtenXml, fun hnodup text htext => ?_⟩
  have hnone : firstRepeated? [] (document.records.map Record.name) = none :=
    firstRepeated?_eq_none hnodup fun _ _ => List.not_mem_nil
  rw [htext.ofXml_eq, hnone]

/-- A record type with a function of a map. -/
def Document.gallery : Document :=
  let sizes : Shape := .map (.basic "string") (.basic "int")
  let hang : Shape := .func [⟨some "sizes", sizes⟩] [⟨none, .basic "bool"⟩] false
  ⟨⟨"example.com/art/v2", some "art"⟩, [⟨"Piece", [⟨"Hang", hang, some "a&b"⟩]⟩]⟩

/-- The record type in a text that makes use of what is free: the order of the
    attributes, of key and value, and of parameters and results, the quotes, one
    tag or two, blanks and a comment. -/
def Document.galleryXml : String :=
  "<package name = 'art' path=\"example.com/art/v2\"><!-- one -->\n<record name=\"Piece\">" ++
    ("<field name=\"Hang\" tag=\"a&amp;b\"><func><result><basic name=\"bool\"/></result>\n" ++
    ("<param name=\"sizes\"><map><value><basic name=\"int\"></basic></value><key>" ++
    "<basic name=\"string\"/></key></map></param></func></field></record>\n</package>"))

/-- The text is one of the document. -/
theorem Document.writtenXml_gallery : Document.gallery.WrittenXml Document.galleryXml := by
  -- The text is put together from the inside out, and the element along with it.
  have hline : Xml.Gap ['\n'] := .blank rfl .nil
  have hint : Xml.Written [.element "basic" [("name", "int")] []] _ :=
    .node .nil (.single (by decide) (by decide) (by decide)) (.nil .nil) blanks_nil (.nil .nil)
  have hstring : Xml.Written [.element "basic" [("name", "string")] []] _ :=
    .empty .nil (.single (by decide) (by decide) (by decide)) (.nil .nil)
  have hbool : Xml.Written [.element "basic" [("name", "bool")] []] _ :=
    .empty .nil (.single (by decide) (by decide) (by decide)) (.nil .nil)
  have hchildren : Xml.Written [typeNode "value" [] _, typeNode "key" [] _] _ :=
    .node .nil (.bare (by decide)) hint blanks_nil
      (.node .nil (.bare (by decide)) hstring blanks_nil (.nil .nil))
  have hmap : Xml.Written [.element "map" [] _] _ :=
    .node .nil (.bare (by decide)) hchildren blanks_nil (.nil .nil)
  have hoperands : Xml.Written [typeNode "result" [] _, typeNode "param" [("name", "sizes")] _] _ :=
    .node .nil (.bare (by decide)) hbool blanks_nil
      (.node hline (.single (by decide) (by decide) (by decide)) hmap blanks_nil (.nil .nil))
  have hfunc : Xml.Written [.element "func" [] _] _ :=
    .node .nil (.bare (by decide)) hoperands blanks_nil (.nil .nil)
  have hmark : WrittenValue '"' ['a', '&', 'b'] _ :=
    .plain rfl (.named (show ('&', "amp") ∈ _ by decide) (.plain rfl .nil))
  have hfieldTag : WrittenTag "field" [("name", "Hang"), ("tag", "a&b")] _ :=
    .intro (by decide) (by decide) (List.Perm.refl _)
      (.tight (by decide) (writtenValue_self (by decide))
        (.tight (by decide) hmark (.nil blanks_nil)))
  have hfield : Xml.Written [typeNode "field" _ _] _ :=
    .node .nil hfieldTag hfunc blanks_nil (.nil .nil)
  have hcomment : Xml.CommentBody " one ".toList :=
    .plain (by decide) (.plain (by decide) (.plain (by decide) (.plain (by decide)
      (.plain (by decide) .nil))))
  have hrecord : Xml.Written [.element "record" [("name", "Piece")] _] _ :=
    .node (.comment hcomment hline) (.single (by decide) (by decide) (by decide)) hfield blanks_nil
      (.nil hline)
  have hpackageTag : WrittenTag "package" [("path", "example.com/art/v2"), ("name", "art")] _ :=
    .intro (by decide) (by decide) (List.Perm.swap _ _ _)
      (.cons (List.cons_ne_nil ' ' []) blanks_space (by decide) blanks_space blanks_space
        (Or.inr rfl) (writtenValue_self (by decide))
        (.tight (by decide) (writtenValue_self (by decide)) (.nil blanks_nil)))
  have hpackage : Xml.Written [.element "package" _ _] _ :=
    .node .nil hpackageTag hrecord blanks_nil (.nil .nil)
  have hsizes := Describes.map (.basic "string") (.basic "int") (List.Perm.swap _ _ _)
  have hhang : Describes (.element "func" [] _) _ :=
    @Describes.func [⟨true, ⟨none, _⟩, _⟩, ⟨false, ⟨some "sizes", _⟩, _⟩] _ _ .unsaid
      (List.forall_mem_cons.mpr ⟨.basic "bool", List.forall_mem_singleton.mpr hsizes⟩)
  have htext : Document.galleryXml.toList = _ :=
    Text.toList_append_eq rfl (Text.toList_append_eq rfl
      (Text.toList_append_eq rfl (Text.toList_eq rfl)))
  exact .intro (.intro (.cons (.intro (.cons (.intro hhang) .nil)) .nil)) .none hpackage
    (htext.trans (by decide +kernel))

theorem Document.ofXml_writtenXml_gallery :
    (gallery.records.map Record.name).Nodup ∧ gallery.WrittenXml galleryXml ∧
      Document.ofXml galleryXml = .ok gallery := by
  have hnodup : (gallery.records.map Record.name).Nodup := by
    decide
  exact ⟨hnodup, writtenXml_gallery,
    (ofXml_writtenXml gallery).2 hnodup galleryXml writtenXml_gallery⟩

end Descriptor

end FunctionalOptions
