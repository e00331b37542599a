import FunctionalOptions.Proofs.Xml.Spelled
import FunctionalOptions.Xml.Event

/-!
# Streams of Events and Their Elements

What end tags that match give to a reader who does not match them. In a balanced
stream every end tag names the innermost open element, so a stream behind a start tag
goes through whole elements until it comes to the end tag of that start tag, or breaks
off. The same walk through the stream says which elements these are, and they are the
ones that are put together from the tags of the text.

A stream may be cut off in the middle of an element. Then the element, and all that
are around it, end as the stream does.

## Main definitions

* `Event.Balanced`: The end tags of a stream match.
* `Event.Nested`: Events that open and close elements in pairs.
* `Event.Spans`: The elements at the beginning of a stream, and what follows them.
* `Event.Ends`: How an element ends that has come to a place in a stream.

## Theorems

* `Event.exists_spans`: A balanced stream has elements up to where the innermost open
  one ends.
* `Event.Spans.exists_nested`: Elements that are whole open and close in pairs.
* `Event.ofText_elements`: The elements of a stream are those of the text.
-/

namespace FunctionalOptions

namespace Xml

namespace Event

/-- Every end tag of the stream names the innermost open element, given the names of
    those that are open, innermost first. -/
def Balanced : List String → List Event → Prop
  | _, [] => True
  | inside, .start tag :: rest => Balanced (tag.name :: inside) rest
  | inside, .close name :: rest => ∃ outer, inside = name :: outer ∧ Balanced outer rest
  | _, .fault _ :: _ => True
  | inside, _ :: rest => Balanced inside rest

/-- The events open and close elements in pairs. -/
inductive Nested : List Event → Prop where
  | nil : Nested []
  | other {rest : List Event} : Nested rest → Nested (.other :: rest)
  | empty {tag : Tag} {rest : List Event} : Nested rest → Nested (.empty tag :: rest)
  | element {tag : Tag} {inside rest : List Event} : Nested inside → Nested rest →
    Nested (.start tag :: (inside ++ .close tag.name :: rest))

/-- The stream breaks off. -/
inductive Stops : List Event → Ending → Prop where
  | text : Stops [] .endOfText
  | fault {fault : Fault} {rest : List Event} : Stops (.fault fault :: rest) (.fault fault)

/-- An element whose contents go up to here ends as given. What follows an end tag is
    the rest of the stream behind its first event. -/
inductive Ends : List Event → Ending → Prop where
  | closed {name : String} {rest : List Event} : Ends (.close name :: rest) .closed
  | stopped {tail : List Event} {ending : Ending} : Stops tail ending → Ends tail ending

/-- The stream begins with the elements and goes on with the tail. An element that is
    cut off is the last one. -/
inductive Spans : List Element → List Event → List Event → Prop where
  | nil {tail : List Event} : Spans [] tail tail
  | other {elements : List Element} {rest tail : List Event} :
    Spans elements rest tail → Spans elements (.other :: rest) tail
  | empty {tag : Tag} {elements : List Element} {rest tail : List Event} :
    Spans elements rest tail → Spans (.empty tag :: elements) (.empty tag :: rest) tail
  | node {tag : Tag} {children elements : List Element} {inside rest tail : List Event} :
    Spans children inside (.close tag.name :: rest) → Spans elements rest tail →
    Spans (.node tag children .closed :: elements) (.start tag :: inside) tail
  | cut {tag : Tag} {children : List Element} {ending : Ending} {inside tail : List Event} :
    Spans children inside tail → Stops tail ending →
    Spans [.node tag children ending] (.start tag :: inside) tail

namespace Spans

variable {elements : List Element} {events tail : List Event}

theorem length_le (h : Spans elements events tail) : tail.length ≤ events.length := by
  induction h with
  | nil => exact Nat.le_refl _
  | other _ ih => exact Nat.le_succ_of_le ih
  | empty _ ih => exact Nat.le_succ_of_le ih
  | node _ _ ihinside ih =>
      simp only [List.length_cons] at ihinside ⊢
      omega
  | cut _ _ ih => exact Nat.le_succ_of_le ih

/-- Elements that are whole open and close in pairs. -/
theorem exists_nested (h : Spans elements events tail) (htail : ∀ ending, ¬Stops tail ending) :
    ∃ inside, Nested inside ∧ events = inside ++ tail := by
  induction h with
  | nil => exact ⟨[], .nil, rfl⟩
  | other _ ih =>
      rcases ih htail with ⟨inside, hnested, rfl⟩
      exact ⟨_, .other hnested, rfl⟩
  | empty _ ih =>
      rcases ih htail with ⟨inside, hnested, rfl⟩
      exact ⟨_, .empty hnested, rfl⟩
  | @node tag _ _ _ rest _ _ _ ihinside ih =>
      have hclose : ∀ ending, ¬Stops (.close tag.name :: rest) ending := by
        rintro ending ⟨⟩
      rcases ihinside hclose with ⟨inside, hinside, rfl⟩
      rcases ih htail with ⟨behind, hbehind, rfl⟩
      refine ⟨_, @Nested.element tag _ _ hinside hbehind, ?_⟩
      simp only [List.cons_append, List.append_assoc]
  | cut _ hstops _ => exact absurd hstops (htail _)

end Spans

/-- A balanced stream begins with elements and goes on with a place where the innermost
    open element ends. -/
theorem exists_spans {inside : List String} {events : List Event} (h : Balanced inside events) :
    ∃ elements tail ending,
      Spans elements events tail ∧ Ends tail ending ∧ Balanced inside tail := by
  -- An element goes up to its end tag, and the stream behind that is shorter still.
  induction hlength : events.length using Nat.strongRecOn generalizing inside events with
  | ind n ih =>
      subst hlength
      cases events with
      | nil => exact ⟨[], _, _, .nil, .stopped .text, h⟩
      | cons event rest =>
          have hrest {inside : List String} (h : Balanced inside rest) :=
            ih rest.length (by simp) h rfl
          cases event with
          | fault => exact ⟨[], _, _, .nil, .stopped .fault, h⟩
          | close => exact ⟨[], _, _, .nil, .closed, h⟩
          | other =>
              rcases hrest h with ⟨elements, tail, ending, hspans, htail⟩
              exact ⟨_, _, _, .other hspans, htail⟩
          | empty =>
              rcases hrest h with ⟨elements, tail, ending, hspans, htail⟩
              exact ⟨_, _, _, .empty hspans, htail⟩
          -- The element goes up to where its contents end. It is the last if that is no end tag.
          | start tag =>
              rcases hrest h with ⟨children, tail, ending, hchildren, hends, hbalanced⟩
              cases hends with
              | stopped hstops =>
                  refine ⟨_, _, _, .cut hchildren hstops, .stopped hstops, ?_⟩
                  cases hstops with
                  | text => exact trivial
                  | fault => exact trivial
              | @closed name behind =>
                  rcases hbalanced with ⟨outer, heq, hbehind⟩
                  obtain ⟨rfl, rfl⟩ := List.cons.inj heq
                  have hlength := hchildren.length_le
                  simp only [List.length_cons] at hlength
                  rcases ih behind.length (by simp; omega) hbehind rfl with
                    ⟨elements, tail, ending, hspans, htail⟩
                  exact ⟨_, _, _, .node hchildren hspans, htail⟩

/-! ## The events of a text -/

/-- What is left of an event when only the tags are kept. -/
def toMarkup? : Event → Option Markup
  | .start tag => some (.start tag)
  | .empty tag => some (.empty tag)
  | .close name => some (.close name)
  | .other => none
  | .fault cause => some (.broken cause)

/-- Where a stream breaks off, the text of its tags does. -/
theorem Stops.assemble_eq {tail : List Event} {ending : Ending} (h : Stops tail ending)
    (a : Assembly) : assemble a (tail.filterMap toMarkup?) = a.stop ending := by
  cases h with
  | text => rfl
  | fault => rfl

/-- An element that is cut off ends as what is around it does. -/
theorem stop_addAll_inside (ending : Ending) (tag : Tag) (children : List Element)
    (a : Assembly) :
    (Assembly.addAll children ⟨⟨tag, []⟩ :: a.inside, a.finished⟩).stop ending =
      (a.add (.node tag children ending)).stop ending := by
  rw [Assembly.addAll_inside, Assembly.stop, Assembly.stop, Assembly.add]
  cases a.inside with
  | nil => simp [Assembly.nest, OpenElement.close]
  | cons o outer => simp [Assembly.nest, OpenElement.close]

/-- The tags of a stream make up the elements that it begins with. -/
theorem Spans.assemble_eq {elements : List Element} {events tail : List Event}
    (h : Spans elements events tail) (a : Assembly) :
    assemble a (events.filterMap toMarkup?) =
      assemble (a.addAll elements) (tail.filterMap toMarkup?) := by
  induction h generalizing a with
  | nil => rfl
  | other _ ih => exact ih a
  | empty _ ih => exact ih (a.add _)
  | @node tag _ _ _ rest _ _ _ ihinside ih =>
      have hinside := ihinside ⟨⟨tag, []⟩ :: a.inside, a.finished⟩
      exact hinside.trans ((assemble_close rfl _ a _).trans (ih _))
  | @cut tag _ _ _ _ _ hstops ih =>
      refine (ih ⟨⟨tag, []⟩ :: a.inside, a.finished⟩).trans ?_
      rw [hstops.assemble_eq, hstops.assemble_eq, stop_addAll_inside]
      rfl

/-- Checking the end tags in the stream or when the elements are put together comes to
    the same. -/
theorem assemble_ofMarkup (tags : List Markup) (a : Assembly) :
    assemble a ((ofMarkup (a.inside.map (·.tag.name)) tags).filterMap toMarkup?) =
      assemble a tags := by
  induction tags generalizing a with
  | nil => rfl
  | cons markup rest ih =>
      cases markup with
      | start tag => exact ih ⟨⟨tag, []⟩ :: a.inside, a.finished⟩
      | empty tag =>
          have hrest := ih (a.add (.empty tag))
          rw [Assembly.map_inside_add] at hrest
          exact hrest
      -- The name is compared with that of the innermost open element on both sides.
      | close name =>
          rcases a with ⟨inside, finished⟩
          cases inside with
          | nil => rfl
          | cons o outer =>
              simp only [List.map_cons, ofMarkup, assemble]
              split
              · next hname =>
                have hrest := ih (Assembly.add (o.close .closed) ⟨outer, finished⟩)
                rw [Assembly.map_inside_add] at hrest
                rw [← hrest]
                exact if_pos hname
              · rfl
      | broken fault => rfl

/-- The end tags of the events of a text match. -/
theorem balanced_ofMarkup (inside : List String) (tags : List Markup) :
    Balanced inside (ofMarkup inside tags) := by
  fun_induction ofMarkup inside tags with
  | case1 => exact trivial
  | case2 inside tag rest ih => exact ih
  | case3 inside tag rest ih => exact ih
  | case4 => exact trivial
  | case5 rest innermost outer ih => exact ⟨outer, rfl, ih⟩
  | case6 => exact trivial
  | case7 => exact trivial

/-- What stands between tags is in nobody's way. -/
theorem balanced_filter_iff (inside : List String) (events : List Event) :
    Balanced inside (events.filter (· ≠ .other)) ↔ Balanced inside events := by
  induction events generalizing inside with
  | nil => exact Iff.rfl
  | cons event rest ih =>
      cases event with
      | start tag => exact ih _
      | empty tag => exact ih _
      | close name => exact exists_congr fun outer => and_congr_right fun _ => ih outer
      | other => exact ih _
      | fault cause => exact Iff.rfl

theorem filterMap_toMarkup?_filter (events : List Event) :
    (events.filter (· ≠ .other)).filterMap toMarkup? = events.filterMap toMarkup? := by
  rw [List.filterMap_filter]
  refine congrArg (List.filterMap · events) (funext fun event => ?_)
  cases event with
  | other => rfl
  | _ => rfl

/-- The elements of a stream are those of the text, and the stream breaks off where the
    text does. Between the tags there may be anything. -/
theorem ofText_elements {text : String} {events : List Event}
    (h : events.filter (· ≠ .other) = ofText text) :
    ∃ elements tail ending, Spans elements events tail ∧ Stops tail ending ∧
      Document.ofText text = ⟨elements, ending⟩ := by
  have hbalanced : Balanced [] events :=
    (balanced_filter_iff [] events).mp (h ▸ balanced_ofMarkup [] _)
  rcases exists_spans hbalanced with ⟨elements, tail, ending, hspans, hends, htail⟩
  -- Outside all elements there is no end tag.
  have hstops : Stops tail ending := by
    cases hends with
    | closed =>
        obtain ⟨outer, hnil, -⟩ := htail
        cases hnil
    | stopped hstops => exact hstops
  refine ⟨elements, tail, ending, hspans, hstops, ?_⟩
  have hread := hspans.assemble_eq ⟨[], []⟩
  rw [← filterMap_toMarkup?_filter, h, hstops.assemble_eq, Assembly.addAll_outside] at hread
  rw [Document.ofText, ← assemble_ofMarkup _ ⟨[], []⟩]
  refine hread.trans ?_
  simp [Assembly.stop, Assembly.nest]

end Event

end Xml

end FunctionalOptions
