import FunctionalOptions.Proofs.Descriptor.Grammar
import FunctionalOptions.Proofs.Xml.Pieces

/-!
# The Text of an Element

Which part of a text an element is. It goes from the bracket of its first tag to
that of its last, and between the two stand the texts of the elements inside it,
with something that is passed over around them.

That reading such a text gives the element is an induction on the text as it is
put together. The way back is not, since a reader sees a start tag long before
the end tag that goes with it. So for a text in the middle of things it is said
what it does for the elements that are open: it completes them, one after the
other, innermost first.

## Main definitions

* `Spelled`: The text of an element.
* `SpelledAll`: The text of several elements.
* `Document.Complete`: The elements of a text came to their ends, and so did the
  text.
* `Completes`: A text completes open elements.

## Theorems

* `SpelledAll.assemble_eq`: The text of some elements adds them to what has been
  read.
* `completes_of_complete`: What is read behind open elements completes them.
* `spelledAll_iff`: A text has complete elements exactly if it is put together from
  theirs.
-/

namespace FunctionalOptions

namespace Xml

mutual

/-- The text is that of the element, from its first bracket to its last. -/
inductive Spelled : Element → List Char → Prop where
  | empty {tag : Tag} {text : List Char} : TagText (.empty tag) text → Spelled (.empty tag) text
  | node {tag : Tag} {children : List Element} {start inside close : List Char} :
    TagText (.start tag) start → SpelledAll children inside → TagText (.close tag.name) close →
    Spelled (.node tag children .closed) (start ++ (inside ++ close))

/-- The text is that of the elements, with fillers around them. -/
inductive SpelledAll : List Element → List Char → Prop where
  | filler {text : List Char} : Filler text → SpelledAll [] text
  | cons {e : Element} {elements : List Element} {gap text rest : List Char} :
    Filler gap → Spelled e text → SpelledAll elements rest →
    SpelledAll (e :: elements) (gap ++ (text ++ rest))

end

/-! ## Reading the text of an element -/

mutual

/-- The text of an element adds it to what has been read. -/
theorem Spelled.assemble_eq {e : Element} {text : List Char} (h : Spelled e text) (a : Assembly)
    (rest : List Char) : assemble a (markup (text ++ rest)) = assemble (a.add e) (markup rest) := by
  cases h with
  | empty htag => rw [htag.markup_append, assemble]
  | node hstart hinside hclose =>
      rw [List.append_assoc, List.append_assoc, hstart.markup_append, assemble,
        hinside.assemble_eq, hclose.markup_append, assemble_close rfl]

/-- The text of some elements adds them to what has been read. -/
theorem SpelledAll.assemble_eq {elements : List Element} {text : List Char}
    (h : SpelledAll elements text) (a : Assembly) (rest : List Char) :
    assemble a (markup (text ++ rest)) = assemble (a.addAll elements) (markup rest) := by
  cases h with
  | filler hfiller =>
      rw [hfiller]
      rfl
  | cons hfiller hspelled hrest =>
      rw [List.append_assoc, List.append_assoc, hfiller, hspelled.assemble_eq, hrest.assemble_eq]
      rfl

end

/-! ## Completing open elements -/

/-- The elements came to their ends, and so did the text. -/
structure Document.Complete (document : Document) : Prop where
  ending : document.ending = .endOfText
  element : ∀ e ∈ document.elements, ∃ tag inside, Holds e tag inside

/-- The outermost open element ends as all of them do. -/
theorem Assembly.exists_nest_cons (ending : Ending) (inner : Option Element) (o : OpenElement)
    (outer : List OpenElement) :
    ∃ tag children, nest ending inner (o :: outer) = some (.node tag children ending) := by
  induction outer generalizing inner o with
  | nil => exact ⟨_, _, rfl⟩
  | cons o' outer ih => exact ih _ o'

/-- Where a text may stop, no element is open. -/
theorem Assembly.inside_of_complete {ending : Ending} {a : Assembly}
    (h : (a.stop ending).Complete) : ending = .endOfText ∧ a.inside = [] := by
  have hending : ending = .endOfText := h.ending
  refine ⟨hending, ?_⟩
  cases hinside : a.inside with
  | nil => rfl
  | cons o outer =>
      -- The outermost element would have ended with the text.
      rcases exists_nest_cons ending none o outer with ⟨tag, children, hnest⟩
      have hmem : .node tag children ending ∈ (a.stop ending).elements := by
        rw [stop, hinside, hnest]
        simp
      rcases h.element _ hmem with ⟨_, _, hholds⟩
      cases hholds
      cases hending

/-- The text completes open elements of the names, innermost first, and has elements
    of its own before, between and behind their ends. -/
inductive Completes : List String → List Char → Prop where
  | done {elements : List Element} {text : List Char} : SpelledAll elements text →
    Completes [] text
  | close {name : String} {names : List String} {elements : List Element}
      {inside close rest : List Char} : SpelledAll elements inside → TagText (.close name) close →
    Completes names rest → Completes (name :: names) (inside ++ (close ++ rest))

theorem filler_nil : Filler [] :=
  fun _ => rfl

/-- A filler goes with what stands behind it. -/
theorem SpelledAll.filler_append {elements : List Element} {gap text : List Char}
    (hgap : Filler gap) (h : SpelledAll elements text) : SpelledAll elements (gap ++ text) := by
  have happend {more : List Char} (hmore : Filler more) : Filler (gap ++ more) := by
    intro rest
    rw [List.append_assoc, hgap, hmore]
  cases h with
  | filler hfiller => exact .filler (happend hfiller)
  | cons hfiller hspelled hrest =>
      rw [← List.append_assoc]
      exact .cons (happend hfiller) hspelled hrest

namespace Completes

variable {names : List String} {text : List Char}

theorem filler_append {gap : List Char} (hgap : Filler gap) (h : Completes names text) :
    Completes names (gap ++ text) := by
  cases h with
  | done hall => exact .done (hall.filler_append hgap)
  | close hall hclose hrest =>
      rw [← List.append_assoc]
      exact .close (hall.filler_append hgap) hclose hrest

/-- An element goes with those behind it. -/
theorem spelled_append {e : Element} {front : List Char} (he : Spelled e front)
    (h : Completes names text) : Completes names (front ++ text) := by
  cases h with
  | done hall => exact .done (.cons filler_nil he hall)
  | close hall hclose hrest =>
      rw [← List.append_assoc]
      exact .close (.cons filler_nil he hall) hclose hrest

/-- What completes an element is the rest of its text, so it can be put behind the
    start tag. -/
theorem start_append {tag : Tag} {start : List Char} (hstart : TagText (.start tag) start)
    (h : Completes (tag.name :: names) text) : Completes names (start ++ text) := by
  cases h with
  | @close _ _ _ inside close rest hall hclose hrest =>
      have h := spelled_append (.node hstart hall hclose) hrest
      rwa [List.append_assoc, List.append_assoc] at h

end Completes

/-- An element that is taken in leaves the open ones open. -/
theorem Assembly.map_inside_add (e : Element) (a : Assembly) :
    (a.add e).inside.map (·.tag.name) = a.inside.map (·.tag.name) := by
  rw [add]
  cases a.inside with
  | nil => rfl
  | cons o outer => rfl

/-- What is read behind open elements completes them, if they come to their ends. -/
theorem completes_of_complete {text : List Char} {a : Assembly}
    (h : (assemble a (markup text)).Complete) :
    Completes (a.inside.map (·.tag.name)) text := by
  -- Piece by piece, from the front: what has been read so far is in the open elements.
  induction text using pieces_induction generalizing a with
  | nil =>
      rw [markup, assemble] at h
      rw [(Assembly.inside_of_complete h).2]
      exact .done (.filler filler_nil)
  | filler gap rest hfiller ih =>
      rw [hfiller] at h
      exact (ih h).filler_append hfiller
  | tag m tag rest htag ih =>
      rw [htag.markup_append] at h
      cases m with
      | start t =>
          rw [assemble] at h
          exact (ih h).start_append htag
      | empty t =>
          rw [assemble] at h
          have hrest := ih h
          rw [Assembly.map_inside_add] at hrest
          exact hrest.spelled_append (.empty htag)
      | close name =>
          rw [assemble] at h
          cases hinside : a.inside with
          | nil =>
              rw [hinside] at h
              -- There is nothing to close here, which is a fault.
              cases (Assembly.inside_of_complete h).1
          | cons o outer =>
              simp only [hinside] at h
              split at h
              · -- The end tag closes the innermost element, and the rest completes those around it.
                next hname =>
                have hrest := ih h
                rw [Assembly.map_inside_add] at hrest
                rw [List.map_cons, ← hname]
                exact .close (.filler filler_nil) htag hrest
              · cases (Assembly.inside_of_complete h).1
      | broken fault =>
          rw [assemble] at h
          cases (Assembly.inside_of_complete h).1
  | broken text fault hbroken =>
      rw [hbroken, assemble] at h
      cases (Assembly.inside_of_complete h).1

/-! ## Texts of elements -/

/-- The texts of elements that come to their ends are of no others. -/
theorem SpelledAll.holds {elements : List Element} {text : List Char}
    (h : SpelledAll elements text) : ∀ e ∈ elements, ∃ tag inside, Holds e tag inside := by
  cases h with
  | filler _ => exact List.forall_mem_nil _
  | cons _ hspelled hrest =>
      refine List.forall_mem_cons.mpr ⟨?_, hrest.holds⟩
      cases hspelled with
      | empty _ => exact ⟨_, _, .empty _⟩
      | node _ _ _ => exact ⟨_, _, .node _ _⟩

/-- Where no element is open, the text of some elements is read as these. -/
theorem SpelledAll.assemble_outside {elements : List Element} {text : List Char}
    (h : SpelledAll elements text) (finished : List Element) :
    assemble ⟨[], finished⟩ (markup text) = ⟨finished.reverse ++ elements, .endOfText⟩ := by
  have hread := h.assemble_eq ⟨[], finished⟩ []
  rw [List.append_nil, Assembly.addAll_outside, markup, assemble, Assembly.stop] at hread
  rw [hread, Assembly.nest, Option.toList_none, List.nil_append, List.reverse_append,
    List.reverse_reverse]

/-- Where no element is open, a text that is complete is that of some elements. -/
theorem exists_spelledAll_of_complete {text : List Char} {finished : List Element}
    (h : (assemble ⟨[], finished⟩ (markup text)).Complete) :
    ∃ elements, SpelledAll elements text := by
  have hcompletes : Completes [] text := completes_of_complete h
  cases hcompletes with
  | done hall => exact ⟨_, hall⟩

/-- A text has complete elements exactly if it is put together from theirs. -/
theorem spelledAll_iff {elements : List Element} {text : String} :
    SpelledAll elements text.toList ↔
      (Document.ofText text).Complete ∧ (Document.ofText text).elements = elements := by
  rw [Document.ofText, markup_skipByteOrderMark]
  constructor
  · intro h
    rw [h.assemble_outside]
    exact ⟨⟨rfl, h.holds⟩, rfl⟩
  · rintro ⟨hcomplete, helements⟩
    rcases exists_spelledAll_of_complete hcomplete with ⟨others, hall⟩
    -- The elements that the text is put together from are those that are read.
    rw [hall.assemble_outside] at helements
    exact helements ▸ hall

/-! ## Endings -/

/-- A text ends with itself, or at a fault. -/
theorem assemble_ending (a : Assembly) (tags : List Markup) :
    (assemble a tags).ending = .endOfText ∨ ∃ fault, (assemble a tags).ending = .fault fault := by
  fun_induction assemble a tags with
  | case1 => exact .inl rfl
  | case2 a tag rest ih => exact ih
  | case3 a tag rest ih => exact ih
  | case4 => exact .inr ⟨_, rfl⟩
  | case5 a rest o outer hinside ih => exact ih
  | case6 => exact .inr ⟨_, rfl⟩
  | case7 => exact .inr ⟨_, rfl⟩

/-- What is read to the end of the text has no fault of the markup. -/
theorem not_broken_of_ending {a : Assembly} {tags : List Markup}
    (h : (assemble a tags).ending = .endOfText) (fault : Fault) : .broken fault ∉ tags := by
  fun_induction assemble a tags with
  | case1 => exact List.not_mem_nil
  | case2 a tag rest ih =>
      refine List.not_mem_cons_of_ne_of_not_mem ?_ (ih h)
      rintro ⟨⟩
  | case3 a tag rest ih =>
      refine List.not_mem_cons_of_ne_of_not_mem ?_ (ih h)
      rintro ⟨⟩
  | case4 => cases h
  | case5 a rest o outer hinside ih =>
      refine List.not_mem_cons_of_ne_of_not_mem ?_ (ih h)
      rintro ⟨⟩
  | case6 => cases h
  | case7 => cases h

/-- The texts of elements are without faults. -/
theorem SpelledAll.unbroken {elements : List Element} {text : List Char}
    (h : SpelledAll elements text) : Unbroken text := by
  refine fun fault => @not_broken_of_ending ⟨[], []⟩ _ ?_ fault
  rw [h.assemble_outside]

end Xml

end FunctionalOptions
