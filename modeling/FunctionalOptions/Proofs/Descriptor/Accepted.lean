import FunctionalOptions.Proofs.Descriptor.AcceptedShape
import FunctionalOptions.Proofs.Xml.Filler

/-!
# Documents That Are Accepted

A text is read as a document exactly if it has no fault and one element outside
all others, and that element stands for the document. The grammar leaves open what
is put between the tags of a text; text and comments there make no difference.

## Theorems

* `readFieldElement_eq_ok_iff`, `readRecordElement_eq_ok_iff`,
  `readPackageElement_eq_ok_iff`: An element is read as what it stands for.
* `readRecordElements_eq_ok_iff`: Record types are read if their names differ.
* `Document.ofXml_eq_ok_iff`: A text is read as the documents its one element
  stands for.
* `Document.ofXml_grammar`: What is read follows the grammar, and in the intended
  way exactly if no member has an element inside.
-/

namespace FunctionalOptions

namespace Descriptor

open Xml (CommentBody Element Ending EndsBetween Holds Passes PlainText Tag Wraps)

/-! ## Documents -/

/-- A tag with an answer for one attribute has its attributes. -/
theorem attributesOf_of_optional {tag : Tag} {key : String} {value : Option String}
    (h : optional tag key = .ok value) : ∃ attributes, attributesOf tag = .ok attributes := by
  cases hattributes : attributesOf tag with
  | error error =>
      rw [optional, hattributes] at h
      cases h
  | ok attributes => exact ⟨attributes, rfl⟩

/-- What is asked of a tag is answered from its attributes. -/
theorem optional_eq_ok_iff {tag : Tag} {attributes : List (String × String)}
    (h : attributesOf tag = .ok attributes) {key : String} {value : Option String} :
    optional tag key = .ok value ↔ attributes.lookup key = value := by
  rw [optional, h]
  exact ⟨fun h => Except.ok.inj h, congrArg Except.ok⟩

theorem readFieldElement_eq_ok_iff {record : String} {e : Element} {field : Field} :
    readFieldElement record e = .ok field ↔ FitsField AllMembers e field := by
  constructor
  · intro h
    cases e with
    | empty tag =>
        rw [readFieldElement] at h
        cases h
    | node tag children ending =>
        by_cases hfield : tag.name = "field"
        · rw [readFieldElement, if_pos hfield, Except.bind_eq_ok_iff] at h
          rcases h with ⟨attributes, hattributes, h⟩
          cases hname : attributes.lookup "name" with
          | none =>
              rw [hname] at h
              cases h
          | some name =>
              simp only [hname, Except.bind_eq_ok_iff] at h
              rcases h with ⟨shape, hshape, h⟩
              cases h
              -- What stands inside has been read as one shape, so it is one element.
              rcases wraps_of_readOnly hfield hshape with ⟨type, hwraps, htype⟩
              exact ⟨tag, type, hwraps, (optional_eq_ok_iff hattributes).mpr hname,
                (optional_eq_ok_iff hattributes).mpr rfl, readShapeElement_eq_ok_iff.mp htype⟩
        · rw [readFieldElement, if_neg hfield] at h
          cases h
  · rintro ⟨tag, type, hwraps, hname, hmark, htype⟩
    cases hwraps with | intro _ hfield =>
    -- The reader takes all attributes at once, where the grammar asks for each.
    rcases attributesOf_of_optional hname with ⟨attributes, hattributes⟩
    rw [optional_eq_ok_iff hattributes] at hname hmark
    rw [readFieldElement, if_pos hfield, Except.bind_eq_ok_iff]
    refine ⟨attributes, hattributes, ?_⟩
    simp only [hname, hmark, readOnly_single (readShapeElement_eq_ok_iff.mpr htype)]
    rfl

theorem readFieldElements_eq_ok_iff {record : String} {elements : List Element}
    {fields : List Field} : readFieldElements record elements = .ok fields ↔
      List.Forall₂ (FitsField AllMembers) elements fields := by
  constructor
  · intro h
    induction elements generalizing fields with
    | nil =>
        cases h
        exact .nil
    | cons e rest ih =>
        simp only [readFieldElements, Except.bind_eq_ok_iff] at h
        rcases h with ⟨field, hfield, others, hothers, h⟩
        cases h
        exact .cons (readFieldElement_eq_ok_iff.mp hfield) (ih hothers)
  · intro h
    induction h with
    | nil => rfl
    | cons hfield _ ih =>
        rw [readFieldElements, readFieldElement_eq_ok_iff.mpr hfield, ih]
        rfl

theorem readRecordElement_eq_ok_iff {e : Element} {record : Record} :
    readRecordElement e = .ok record ↔ FitsRecord AllMembers e record := by
  constructor
  · intro h
    by_cases hrecord : e.tag.name = "record"
    · -- The name is read first, and for both ways in which the element may be written.
      simp only [readRecordElement, if_pos hrecord, Except.bind_eq_ok_iff,
        required_eq_ok_iff] at h
      rcases h with ⟨name, hname, h⟩
      cases e with
      | empty tag =>
          cases h
          exact ⟨tag, [], .empty tag, hrecord, hname, .nil⟩
      | node tag children ending =>
          simp only [Except.bind_eq_ok_iff, readFieldElements_eq_ok_iff, finish_eq_ok_iff,
            exists_const] at h
          rcases h with ⟨fields, hfields, rfl, h⟩
          cases h
          exact ⟨tag, children, .node tag children, hrecord, hname, hfields⟩
    · rw [readRecordElement, if_neg hrecord] at h
      cases h
  · rintro ⟨tag, inside, hholds, hrecord, hname, hfields⟩
    rcases record with ⟨name, fields⟩
    have hrequired : required tag "record" "name" = .ok name := required_eq_ok_iff.mpr hname
    cases hholds with
    | empty =>
        -- There is nothing inside one tag, so there are no fields either.
        cases hfields
        rw [readRecordElement, Element.tag, if_pos hrecord, hrequired]
        rfl
    | node =>
        rw [readRecordElement, Element.tag, if_pos hrecord, hrequired]
        show (readFieldElements name inside).bind _ = _
        rw [readFieldElements_eq_ok_iff.mpr hfields]
        rfl

/-- Names that are not taken are not taken either once another name is. -/
theorem forall_not_mem_cons {name : String} {names taken : List String} (hname : name ∉ names)
    (htaken : ∀ other ∈ names, other ∉ taken) : ∀ other ∈ names, other ∉ name :: taken := by
  intro other hother hmem
  rcases List.mem_cons.mp hmem with rfl | hmem
  · exact hname hother
  · exact htaken other hother hmem

/-- Record types are read if their names differ and are not taken. -/
theorem readRecordElements_eq_ok_iff {taken : List String} {elements : List Element}
    {records : List Record} : readRecordElements taken elements = .ok records ↔
      List.Forall₂ (FitsRecord AllMembers) elements records ∧
        (records.map Record.name).Nodup ∧ ∀ name ∈ records.map Record.name, name ∉ taken := by
  constructor
  · intro h
    induction elements generalizing taken records with
    | nil =>
        cases h
        exact ⟨.nil, .nil, List.forall_mem_nil _⟩
    | cons e rest ih =>
        rw [readRecordElements, Except.bind_eq_ok_iff] at h
        rcases h with ⟨record, hrecord, h⟩
        by_cases htaken : taken.contains record.name = true
        · rw [if_pos htaken] at h
          cases h
        · rw [if_neg htaken] at h
          simp only [Except.bind_eq_ok_iff] at h
          rcases h with ⟨records, hrecords, h⟩
          cases h
          rcases ih hrecords with ⟨hfits, hnodup, hdiffer⟩
          rw [List.contains_iff_mem] at htaken
          -- The names that follow differ from this one since it is taken for them.
          have hfresh : record.name ∉ records.map Record.name := fun hmem =>
            hdiffer _ hmem List.mem_cons_self
          refine ⟨.cons (readRecordElement_eq_ok_iff.mp hrecord) hfits,
            List.nodup_cons.mpr ⟨hfresh, hnodup⟩,
            List.forall_mem_cons.mpr ⟨htaken, fun name hname hmem => ?_⟩⟩
          exact hdiffer name hname (List.mem_cons_of_mem _ hmem)
  · rintro ⟨hfits, hnodup, hdiffer⟩
    induction hfits generalizing taken with
    | nil => rfl
    | @cons e record rest records hrecord _ ih =>
        rw [List.map_cons, List.nodup_cons] at hnodup
        rw [List.map_cons, List.forall_mem_cons] at hdiffer
        have hrest := ih hnodup.2 (forall_not_mem_cons hnodup.1 hdiffer.2)
        have htaken : ¬taken.contains record.name = true := by
          simpa using hdiffer.1
        -- A name is looked for among the taken ones once the record type is read.
        rw [readRecordElements, readRecordElement_eq_ok_iff.mpr hrecord]
        show (if taken.contains record.name then _ else _) = _
        rw [if_neg htaken]
        show (readRecordElements (record.name :: taken) rest).bind _ = _
        rw [hrest]
        rfl

theorem readPackageTag_eq_ok_iff {tag : Tag} {package : Package} :
    readPackageTag tag = .ok package ↔ optional tag "path" = .ok (some package.path) ∧
      optional tag "name" = .ok package.name := by
  constructor
  · intro h
    rw [readPackageTag, Except.bind_eq_ok_iff] at h
    rcases h with ⟨attributes, hattributes, h⟩
    cases hpath : attributes.lookup "path" with
    | none =>
        rw [hpath] at h
        cases h
    | some path =>
        rw [hpath] at h
        cases h
        exact ⟨(optional_eq_ok_iff hattributes).mpr hpath, (optional_eq_ok_iff hattributes).mpr rfl⟩
  · rintro ⟨hpath, hname⟩
    rcases attributesOf_of_optional hpath with ⟨attributes, hattributes⟩
    rw [optional_eq_ok_iff hattributes] at hpath hname
    rw [readPackageTag, Except.bind_eq_ok_iff]
    refine ⟨attributes, hattributes, ?_⟩
    simp only [hpath, hname]
    rfl

theorem readPackageElement_eq_ok_iff {e : Element} {document : Document} :
    e.tag.name = "package" ∧ readPackageElement e = .ok document ↔
      FitsDocument AllMembers e document := by
  constructor
  · rintro ⟨hpackage, h⟩
    rw [readPackageElement, Except.bind_eq_ok_iff] at h
    rcases h with ⟨package, htag, h⟩
    rcases readPackageTag_eq_ok_iff.mp htag with ⟨hpath, hname⟩
    cases e with
    | empty tag =>
        cases h
        exact ⟨tag, [], .empty tag, hpackage, hpath, hname, .nil, .nil⟩
    | node tag children ending =>
        simp only [Except.bind_eq_ok_iff, readRecordElements_eq_ok_iff, finish_eq_ok_iff,
          exists_const] at h
        rcases h with ⟨records, ⟨hfits, hnodup, _⟩, rfl, h⟩
        cases h
        exact ⟨tag, children, .node tag children, hpackage, hpath, hname, hfits, hnodup⟩
  · rintro ⟨tag, inside, hholds, hpackage, hpath, hname, hfits, hnodup⟩
    rcases document with ⟨package, records⟩
    have htag : readPackageTag tag = .ok package := readPackageTag_eq_ok_iff.mpr ⟨hpath, hname⟩
    cases hholds with
    | empty =>
        cases hfits
        refine ⟨hpackage, ?_⟩
        rw [readPackageElement, Element.tag, htag]
        rfl
    | node =>
        -- No name is taken before the first record.
        have hread := readRecordElements_eq_ok_iff.mpr
          ⟨hfits, hnodup, fun _ _ => List.not_mem_nil⟩
        refine ⟨hpackage, ?_⟩
        rw [readPackageElement, Element.tag, htag]
        show (readRecordElements [] inside).bind _ = _
        rw [hread]
        rfl

/-- With a document found, there is nothing more but the end. -/
theorem readElements_some_eq_ok_iff {found document : Document} {ending : Ending}
    {elements : List Element} : readElements (some found) ending elements = .ok document ↔
      elements = [] ∧ (∀ fault, ending ≠ .fault fault) ∧ found = document := by
  cases elements with
  | nil => cases ending <;> simp [readElements]
  | cons e rest =>
      rw [readElements, if_neg (by simp)]
      simp

/-- One element is read as a document, and a text that has no fault behind it. -/
theorem readElements_eq_ok_iff {document : Document} {ending : Ending} {elements : List Element} :
    readElements none ending elements = .ok document ↔
      (∀ fault, ending ≠ .fault fault) ∧
        ∃ e, elements = [e] ∧ FitsDocument AllMembers e document := by
  cases elements with
  | nil => cases ending <;> simp [readElements]
  | cons e rest =>
      rw [readElements]
      by_cases hpackage : e.tag.name = "package"
      · rw [if_pos ⟨hpackage, rfl⟩, Except.bind_eq_ok_iff]
        simp only [readElements_some_eq_ok_iff]
        constructor
        · rintro ⟨found, hfound, rfl, hending, rfl⟩
          exact ⟨hending, e, rfl, readPackageElement_eq_ok_iff.mp ⟨hpackage, hfound⟩⟩
        · rintro ⟨hending, _, heq, hfits⟩
          cases heq
          exact ⟨document, (readPackageElement_eq_ok_iff.mpr hfits).2, rfl, hending, rfl⟩
      · -- Any other element is refused, and it does not stand for a document either.
        rw [if_neg (fun h => hpackage h.1)]
        constructor
        · intro h
          cases h
        · rintro ⟨_, _, heq, hfits⟩
          cases heq
          exact absurd (readPackageElement_eq_ok_iff.mpr hfits).1 hpackage

/-- A text is read as a document if it has no fault and one element, which stands
    for the document. -/
theorem Document.ofXml_eq_ok_iff {text : String} {document : Document} :
    Document.ofXml text = .ok document ↔
      (∀ fault, (Xml.Document.ofText text).ending ≠ .fault fault) ∧
        ∃ e, (Xml.Document.ofText text).elements = [e] ∧ FitsDocument AllMembers e document :=
  readElements_eq_ok_iff

/-- A text is read as a document if it follows the grammar, with members wherever
    they stand. One that is read follows the grammar in the intended way exactly if
    no member has an element inside. Text and comments between tags make no
    difference, nor do the contents of elements whose contents mean nothing. -/
theorem Document.ofXml_grammar (text : String) (document : Document) :
    (Document.ofXml text = .ok document ↔
      (∀ fault, (Xml.Document.ofText text).ending ≠ .fault fault) ∧
        ∃ e, (Xml.Document.ofText text).elements = [e] ∧ FitsDocument AllMembers e document) ∧
    (Document.ofXml text = .ok document →
      ((∃ e, (Xml.Document.ofText text).elements = [e] ∧ FitsDocument DirectMembers e document) ↔
        ∀ e ∈ (Xml.Document.ofText text).elements, shallow e = true)) ∧
    (∀ front filler rest : String, text = front ++ filler ++ rest →
      EndsBetween front.toList → PlainText filler.toList →
        Document.ofXml text = Document.ofXml (front ++ rest)) ∧
    ∀ tag, tag.name ∈ skipped → ∀ inside,
      readShapeElement (.node tag inside .closed) = readShapeElement (.empty tag) := by
  refine ⟨Document.ofXml_eq_ok_iff, ?_, ?_, fun _ => readShapeElement_skipped⟩
  · intro h
    rcases Document.ofXml_eq_ok_iff.mp h with ⟨_, e, helements, hfits⟩
    rw [helements, List.forall_mem_singleton, ← hfits.direct_iff]
    constructor
    · rintro ⟨_, heq, hdirect⟩
      cases heq
      exact hdirect
    · exact fun hdirect => ⟨e, rfl, hdirect⟩
  · -- Text and comments leave no trace among the elements, so there is nothing to be read of them.
    intro front filler rest htext hfront hfiller
    rw [htext, Document.ofXml, Document.ofXml, hfront.ofText_eq hfiller rest]

/-- A text with a remark behind the first tag is read as if it were not there, and
    as it is meant. -/
theorem Document.ofXml_grammar_remark :
    EndsBetween "<package path='p'>".toList ∧ PlainText "&amp; <!--c-->".toList ∧
      ∃ document, Document.ofXml ("<package path='p'>" ++ "&amp; <!--c-->" ++
          "<record name='R'/></package>") = .ok document ∧
        Document.ofXml ("<package path='p'>" ++ "<record name='R'/></package>") = .ok document ∧
          ∃ e, FitsDocument DirectMembers e document := by
  have hfront : EndsBetween "<package path='p'>".toList := by
    have hchars : "<package path='p'>".toList =
        '<' :: 'p' :: ((['a', 'c', 'k', 'a', 'g', 'e', ' ', 'p', 'a', 't', 'h', '='] ++
          ('\'' :: (['p'] ++ ['\'']))) ++ ['>']) := by
      decide
    have hname : Passes ['p', 'a', 'c', 'k', 'a', 'g', 'e', ' ', 'p', 'a', 't', 'h', '='] :=
      .of_forall (by simp [Xml.isQuote])
    have hvalue : Passes ('\'' :: (['p'] ++ ['\''])) := .quoted (by decide) (by simp)
    rw [hchars]
    exact .tag (hname.append hvalue) (by decide) (by decide) .nil
  have htext : PlainText "&amp; <!--c-->".toList := by
    have hchars : "&amp; <!--c-->".toList =
        '&' :: (['a', 'm', 'p'] ++ ';' :: ' ' :: '<' :: '!' :: '-' :: '-' ::
          (['c'] ++ ['-', '-', '>'])) := by
      decide
    have hcomment : CommentBody ['c'] := .plain (by decide) .nil
    rw [hchars]
    exact .reference (by simp) (.char (by decide) (by decide) (.comment hcomment .nil))
  let front := "<package path='p'>"
  let rest := "<record name='R'/></package>"
  rcases Except.exists_of_isOk (show (Document.ofXml (front ++ rest)).isOk = true by
    decide +kernel) with ⟨document, hread⟩
  have hshallow : ∀ e ∈ (Xml.Document.ofText (front ++ rest)).elements, shallow e = true :=
    List.all_eq_true.mp (by decide +kernel)
  rcases ((Document.ofXml_grammar _ document).2.1 hread).mpr hshallow with ⟨e, _, hdirect⟩
  have hremark := (Document.ofXml_grammar _ document).2.2.1 front _ rest rfl hfront htext
  exact ⟨hfront, htext, document, hremark.trans hread, hread, e, hdirect⟩

/-- A method with a method inside. -/
def Document.nestedMethodXml : String :=
  "<package path=\"p\"><record name=\"R\"><field name=\"F\"><interface><method name=\"A\">" ++
    "<method name=\"B\"/></method></interface></field></record></package>"

/-- The method inside is taken for one more method behind the other, which is not
    what the text means. -/
theorem Document.ofXml_nestedMethod :
    ((Document.ofXml nestedMethodXml).map fun document => document.records.map fun record =>
      record.fields.map (·.type.describe)) = .ok [["interface with methods (A, B)"]] ∧
    ¬∃ e document, Document.ofXml nestedMethodXml = .ok document ∧
      (Xml.Document.ofText nestedMethodXml).elements = [e] ∧
        FitsDocument DirectMembers e document := by
  have htext : nestedMethodXml.toList = _ := Text.toList_append_eq rfl (Text.toList_eq rfl)
  constructor
  · rw [Document.ofXml, Xml.Document.ofText, htext]
    decide +kernel
  · rintro ⟨e, document, hread, helements, hdirect⟩
    rcases Document.ofXml_eq_ok_iff.mp hread with ⟨_, other, hother, hfits⟩
    rw [helements] at hother
    cases hother
    -- The element is the one that was read, and it is not shallow.
    have hshallow : (Xml.Document.ofText nestedMethodXml).elements.all shallow = false := by
      rw [Xml.Document.ofText, htext]
      decide +kernel
    rw [helements, List.all_cons, hfits.direct_iff.mp hdirect] at hshallow
    cases hshallow

end Descriptor

end FunctionalOptions
