import FunctionalOptions.Proofs.Descriptor.Accepted
import FunctionalOptions.Proofs.Descriptor.AgreementShape

/-!
# Documents from Events and from Elements

Fields, records and packages are read from the events of a stream as they are from
its elements. Around shapes there is only one way of telling an end tag: every start
tag is handed on to a reader that takes the element, so the first end tag that is left
is the right one.

A reader of events adds what it reads to what it has found, and a reader of elements
puts what it reads in front of what comes of the rest. They are compared behind what
has been found, where that the names of records differ is a matter of those that are
taken.

## Main definitions

* `Pull.fieldsBehind`, `Pull.recordsBehind`: Fields and records behind those found so
  far.

## Theorems

* `Pull.field_agrees`, `Pull.record_agrees`, `Pull.records_agrees`: Fields and records
  are read from events as from elements.
* `Pull.document_agrees`, `Pull.document_eq_ofXml`: So are documents.
-/

namespace FunctionalOptions

namespace Descriptor

open Xml (Tag Element Ending)
open Xml.Event (Spans Ends Stops)

namespace Pull

section Elements

variable {elements : List Element} {events tail more : Stream} {ending : Ending}

/-! ## Fields -/

/-- The field of an element, whatever its name is. -/
def readFieldOf (tag : Tag) (elements : List Element) (ending : Ending) : Result Field := do
  let attributes ← attributesOf tag
  match attributes.lookup "name" with
  | none => throw (.missingAttribute "field" "name")
  | some name =>
    let type ← readOnly "field" none ending elements
    return ⟨name, type, attributes.lookup "tag"⟩

theorem readFieldElement_node {tag : Tag} (hfield : tag.name = "field") (record : String) :
    readFieldElement record (.node tag elements ending) = readFieldOf tag elements ending := by
  rw [readFieldElement, if_pos hfield]
  rfl

theorem closed_of_readFieldOf {tag : Tag} {field : Field}
    (h : readFieldOf tag elements ending = .ok field) : ending = .closed := by
  rw [readFieldOf, Except.bind_eq_ok_iff] at h
  rcases h with ⟨attributes, -, h⟩
  -- Without a name there is an error, and the type is only read up to the end of the element.
  cases hname : attributes.lookup "name" with
  | none =>
      rw [hname] at h
      cases h
  | some name =>
      rw [hname] at h
      rcases (Except.bind_eq_ok_iff _ _ _).mp h with ⟨type, htype, -⟩
      exact (of_readOnly htype).1

theorem field_agrees (h : Spans elements events tail) (hends : Ends tail ending) (tag : Tag)
    (limit : Nat) :
    Agrees (field limit tag) (readFieldOf tag elements ending) events tail.tail := by
  refine .lift_bind _ fun attributes => ?_
  cases attributes.lookup "name" with
  | none => exact .throw _
  | some name =>
      exact ((inside_agrees h).only hends limit "field" none limit).bind fun _ _ => .pure _

/-- The fields of a record that are found behind others. -/
def fieldsBehind (found : List Field) (record : String) (elements : List Element)
    (ending : Ending) : Result (List Field) := do
  let fields ← readFieldElements record elements
  finish "record" ending
  return found ++ fields

theorem fieldsBehind_cons (found : List Field) (record : String) (e : Element)
    (elements : List Element) (ending : Ending) :
    fieldsBehind found record (e :: elements) ending =
      readFieldElement record e >>= fun field =>
        fieldsBehind (found ++ [field]) record elements ending := by
  simp only [fieldsBehind, readFieldElements, bind_assoc, pure_bind, List.append_assoc,
    List.singleton_append]

theorem fields_cons {tag : Tag} {children : List Element} {childEnding : Ending}
    {inside behind : Stream} {limit : Nat} {record : String}
    (hchildren : Spans children inside behind) (hends : Ends behind childEnding)
    (h : childEnding = .closed → ∀ found count,
      Agrees (loop (fieldsTurn limit record) count found)
        (fieldsBehind found record elements ending) behind.tail more)
    (found : List Field) (count : Nat) :
    Agrees (loop (fieldsTurn limit record) count found)
      (fieldsBehind found record (.node tag children childEnding :: elements) ending)
      (.start tag :: inside) more := by
  refine .loop (fun count => agrees_start ?_) count
  rw [fieldsBehind_cons]
  by_cases hfield : tag.name = "field"
  · -- The rest comes behind the end of this field, so it is there that they have to agree.
    simp only [if_pos hfield]
    rw [readFieldElement_node hfield]
    exact .assoc ((field_agrees hchildren hends tag limit).bind fun field hread =>
      h (closed_of_readFieldOf hread) _ count)
  · -- Both refuse the tag before they look at what stands inside it.
    simp only [if_neg hfield]
    rw [readFieldElement, if_neg hfield]
    exact .of_eq rfl

theorem fields_agrees (h : Spans elements events tail) (hends : Ends tail ending)
    (limit : Nat) (record : String) (found : List Field) (count : Nat) :
    Agrees (loop (fieldsTurn limit record) count found)
      (fieldsBehind found record elements ending) events tail.tail := by
  induction h generalizing found count with
  | nil =>
      refine .loop (fun count => ?_) count
      -- With no element left there is only the end of the record to be found.
      have hnothing : fieldsBehind found record [] ending =
          finish "record" ending >>= fun _ => .ok found := by
        show (finish "record" ending >>= fun _ => .ok (found ++ [])) = _
        rw [List.append_nil]
      rw [hnothing]
      cases hends with
      | closed => exact .of_eq rfl
      | stopped hstops => exact agrees_stop hstops _
  | other _ ih => exact .loop (fun count => agrees_other (ih hends found count)) count
  | empty _ ih =>
      refine .loop (fun count => agrees_empty ?_) count
      rw [fieldsBehind_cons]
      exact .of_eq rfl
  | node hchildren _ _ ih =>
      exact fields_cons hchildren .closed (fun _ => ih hends) found count
  | cut hchildren hstops _ =>
      -- The field has been cut short, so nothing of the record is left behind it.
      refine fields_cons hchildren (.stopped hstops) ?_ found count
      rintro rfl
      cases hstops

/-! ## Records -/

theorem record_agrees {tag : Tag} (h : Spans elements events tail) (hends : Ends tail ending)
    (limit : Nat) :
    Agrees (record limit tag false) (readRecordElement (.node tag elements ending)) events
      tail.tail := by
  refine .ite (fun _ => .lift_bind _ fun name => ?_) fun _ => .throw _
  -- The fields are read with none found before, where there is nothing to put in front.
  have hfields := (fields_agrees h hends limit name [] limit).bind fun fields _ =>
    .pure (Record.mk name fields)
  simp only [fieldsBehind, bind_assoc, pure_bind, List.nil_append] at hfields
  exact hfields

theorem record_empty (tag : Tag) (limit : Nat) (events : Stream) :
    Agrees (record limit tag true) (readRecordElement (.empty tag)) events events :=
  .ite (fun _ => .lift_bind _ fun _ => .pure _) fun _ => .throw _

theorem closed_of_readRecordElement {tag : Tag} {record : Record}
    (h : readRecordElement (.node tag elements ending) = .ok record) : ending = .closed := by
  rcases readRecordElement_eq_ok_iff.mp h with ⟨_, _, hholds, -⟩
  cases hholds
  rfl

/-- The records of a package that are found behind others. -/
def recordsBehind (found : List Record) (elements : List Element) (ending : Ending) :
    Result (List Record) := do
  let records ← readRecordElements (found.map Record.name).reverse elements
  finish "package" ending
  return found ++ records

theorem recordsBehind_nil (found : List Record) (ending : Ending) :
    recordsBehind found [] ending = finish "package" ending >>= fun _ => .ok found := by
  show (finish "package" ending >>= fun _ => .ok (found ++ [])) = _
  rw [List.append_nil]

theorem recordsBehind_cons (found : List Record) (e : Element) (elements : List Element)
    (ending : Ending) :
    recordsBehind found (e :: elements) ending = readRecordElement e >>= fun record =>
      addRecord found record >>= fun found => recordsBehind found elements ending := by
  rw [recordsBehind, readRecordElements, bind_assoc]
  refine bind_congr fun record => ?_
  -- The names taken so far are kept in reverse, which makes no difference to what is among them.
  have htaken : (found.map Record.name).reverse.contains record.name =
      found.any (·.name == record.name) := by
    rw [Bool.eq_iff_iff, List.contains_iff_mem, List.mem_reverse, List.mem_map,
      List.any_eq_true]
    simp only [beq_iff_eq]
  rw [addRecord, htaken]
  split
  · rfl
  · -- A new name: the record goes behind those found, and its name in front of those taken.
    show _ = recordsBehind (found ++ [record]) elements ending
    simp only [recordsBehind, bind_assoc, pure_bind, List.append_assoc, List.singleton_append,
      List.map_append, List.map_singleton, List.reverse_append, List.reverse_singleton]

theorem closed_of_recordsBehind {found records : List Record}
    (h : recordsBehind found elements ending = .ok records) : ending = .closed := by
  rw [recordsBehind, Except.bind_eq_ok_iff] at h
  rcases h with ⟨_, _, h⟩
  rw [Except.bind_eq_ok_iff] at h
  rcases h with ⟨_, hfinish, _⟩
  exact finish_eq_ok_iff.mp hfinish

theorem records_cons {tag : Tag} {children : List Element} {childEnding : Ending}
    {inside behind : Stream} {limit : Nat} (hchildren : Spans children inside behind)
    (hends : Ends behind childEnding)
    (h : childEnding = .closed → ∀ found count,
      Agrees (loop (recordsTurn limit) count found) (recordsBehind found elements ending)
        behind.tail more)
    (found : List Record) (count : Nat) :
    Agrees (loop (recordsTurn limit) count found)
      (recordsBehind found (.node tag children childEnding :: elements) ending)
      (.start tag :: inside) more := by
  refine .loop (fun count => agrees_start ?_) count
  rw [recordsBehind_cons]
  -- First the record, then the look at its name, which takes no event, and then the rest.
  refine .assoc ((record_agrees hchildren hends limit).bind fun record hread =>
    .assoc (.lift_bind _ fun found => ?_))
  exact h (closed_of_readRecordElement hread) found count

theorem records_agrees (h : Spans elements events tail) (hends : Ends tail ending)
    (limit : Nat) (found : List Record) (count : Nat) :
    Agrees (loop (recordsTurn limit) count found) (recordsBehind found elements ending) events
      tail.tail := by
  induction h generalizing found count with
  | nil =>
      refine .loop (fun count => ?_) count
      rw [recordsBehind_nil]
      cases hends with
      | closed => exact .of_eq rfl
      | stopped hstops => exact agrees_stop hstops _
  | other _ ih => exact .loop (fun count => agrees_other (ih hends found count)) count
  | @empty tag elements rest _ _ ih =>
      refine .loop (fun count => agrees_empty ?_) count
      rw [recordsBehind_cons]
      exact .assoc ((record_empty tag limit rest).bind fun record _ =>
        .assoc (.lift_bind _ fun found => ih hends found count))
  | node hchildren _ _ ih =>
      exact records_cons hchildren .closed (fun _ => ih hends) found count
  | cut hchildren hstops _ =>
      -- As with fields, a record that has been cut short leaves nothing to agree on.
      refine records_cons hchildren (.stopped hstops) ?_ found count
      rintro rfl
      cases hstops

/-! ## The document -/

theorem readPackageElement_node (tag : Tag) (children : List Element) (ending : Ending) :
    readPackageElement (.node tag children ending) = readPackageTag tag >>= fun package =>
      recordsBehind [] children ending >>= fun records => .ok ⟨package, records⟩ := by
  rw [readPackageElement]
  simp only [recordsBehind, bind_assoc, pure_bind, List.nil_append, List.map_nil,
    List.reverse_nil]
  rfl

theorem document_cons {tag : Tag} {children : List Element} {childEnding : Ending}
    {inside behind : Stream} {limit : Nat} (hchildren : Spans children inside behind)
    (hends : Ends behind childEnding)
    (h : childEnding = .closed → ∀ found count,
      Agrees (loop (documentTurn limit) count found) (readElements found ending elements)
        behind.tail more)
    (found : Option Document) (count : Nat) :
    Agrees (loop (documentTurn limit) count found)
      (readElements found ending (.node tag children childEnding :: elements))
      (.start tag :: inside) more := by
  refine .loop (fun count => agrees_outer_start ?_) count
  rw [readElements]
  refine .ite_bind (fun _ => ?_) fun _ => .of_eq rfl
  rw [readPackageElement_node]
  simp only [bind_assoc]
  -- The records of the package begin with none found, and end where the package does.
  exact .lift_bind _ fun package =>
    (records_agrees hchildren hends limit [] limit).bind fun records hread =>
      h (closed_of_recordsBehind hread) (some ⟨package, records⟩) count

theorem document_agrees (h : Spans elements events tail) (hstops : Stops tail ending)
    (limit : Nat) (found : Option Document) (count : Nat) :
    Agrees (loop (documentTurn limit) count found) (readElements found ending elements) events
      [] := by
  induction h generalizing found count with
  | nil =>
      refine .loop (fun count => ?_) count
      -- Outside of all elements the text may end, and only a fault is passed on.
      cases hstops with
      | text => cases found <;> exact .of_eq rfl
      | fault => exact .of_eq rfl
  | other _ ih => exact .loop (fun count => ih hstops found count) count
  | @empty tag elements rest _ _ ih =>
      refine .loop (fun count => agrees_outer_empty ?_) count
      rw [readElements]
      refine .ite_bind (fun _ => ?_) fun _ => .of_eq rfl
      rw [readPackageElement]
      simp only [bind_assoc]
      exact .lift_bind _ fun package => ih hstops (some ⟨package, []⟩) count
  | node hchildren _ _ ih =>
      exact document_cons hchildren .closed (fun _ => ih hstops) found count
  | cut hchildren hcut _ =>
      refine document_cons hchildren (.stopped hcut) ?_ found count
      rintro rfl
      cases hcut

end Elements

/-- The document of a text is read from its events, whatever stands between the tags. -/
theorem document_eq_ofXml {text : String} {events : Stream}
    (h : events.filter (· ≠ .other) = Xml.Event.ofText text) {limit : Nat}
    (hlimit : events.length < limit) :
    document limit events = some ((Document.ofXml text).map (·, [])) := by
  rcases Xml.Event.ofText_elements h with ⟨elements, tail, ending, hspans, hstops, htext⟩
  -- An outcome there is for certain, since the limit is beyond the length of the stream.
  rcases @document_returns events with ⟨outcome, hbig, -⟩
  have houtcome := document_agrees hspans hstops limit none limit outcome (hbig limit hlimit)
  rw [hbig limit hlimit, houtcome, Document.ofXml, htext]

end Pull

end Descriptor

end FunctionalOptions
