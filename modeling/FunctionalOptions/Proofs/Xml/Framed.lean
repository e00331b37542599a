import FunctionalOptions.Proofs.Xml.Spelled

/-!
# Where an Element Ends

A text with one element has it between what is passed over, so it can be said
where the element ends, and that a text that is cut off before is no text of one
element any more.

The tags that the reader finds tell the two apart, and not what stands between
them, which may hold anything. Up to the cut the reader finds no fault. If there
was an element up to there, then all that comes behind would have to be passed
over, and the text would have no more tags than its cut. But the element ends
with a tag, and without its last bracket this is a fault and no tag.

## Main definitions

* `Frames`: The one element of a text, and what is passed over before and after
  it.

## Theorems

* `spelledAll_singleton_iff`: A text of one element has it in a frame.
* `Frames.not_spelledAll`: A text of one element is not cut short by another one
  before the element ends.
-/

namespace FunctionalOptions

namespace Xml

/-- The one element of a text, and what is passed over before and after it. -/
structure Frames (e : Element) (before element after : List Char) : Prop where
  before : Filler before
  element : Spelled e element
  after : Filler after

theorem spelledAll_singleton_iff {e : Element} {text : List Char} :
    SpelledAll [e] text ↔
      ∃ before element after, text = before ++ (element ++ after) ∧
        Frames e before element after := by
  constructor
  · intro h
    cases h with
    | cons hbefore helement hrest =>
        cases hrest with
        | filler hafter => exact ⟨_, _, _, rfl, hbefore, helement, hafter⟩
  · rintro ⟨before, element, after, rfl, h⟩
    exact .cons h.before h.element (.filler h.after)

/-- The text of a tag is broken without the bracket at its end. -/
theorem TagText.broken_dropLast {m : Markup} {text : List Char} (h : TagText m text) :
    ∃ fault, markup text.dropLast = [.broken fault] := by
  cases h with
  | @intro tag hpasses hhead =>
      -- Without the bracket the search for the end of the tag runs out of text.
      have hscan : scanTag none tag = .error .tagNotClosed := by
        have hscan := hpasses []
        rwa [List.append_nil] at hscan
      rw [← List.cons_append, List.dropLast_concat]
      refine ⟨_, markup_scanTag_error hscan ?_ ?_⟩
      · rintro rest rfl
        exact (hhead _ rfl).1 rfl
      · rintro rest rfl
        exact (hhead _ rfl).2 rfl

/-- The text of an element ends with a tag. -/
theorem Spelled.exists_last {e : Element} {text : List Char} (h : Spelled e text) :
    ∃ front m tag, text = front ++ tag ∧ TagText m tag ∧
      ∀ rest, markup (front ++ rest) = markup front ++ markup rest := by
  cases h with
  | @empty tag text htag =>
      refine ⟨[], _, text, rfl, htag, fun rest => ?_⟩
      rw [markup, List.nil_append, List.nil_append]
  | @node tag children start inside close hstart hinside hclose =>
      refine ⟨start ++ inside, _, close, (List.append_assoc _ _ _).symm, hclose, fun rest => ?_⟩
      rw [List.append_assoc, hstart.markup_append, hstart.markup_append,
        hinside.unbroken.markup_append, List.cons_append]

/-- Behind a text of one element, a text of one element has nothing but what is
    passed over. -/
theorem SpelledAll.filler_of_append {e e' : Element} {text rest : List Char}
    (h : SpelledAll [e] (text ++ rest)) (htext : SpelledAll [e'] text) : Filler rest := by
  have hread : assemble ⟨[], [e']⟩ (markup rest) = ⟨[e], .endOfText⟩ := by
    have hread := htext.assemble_eq ⟨[], []⟩ rest
    rw [h.assemble_outside, Assembly.addAll_outside] at hread
    exact hread.symm
  have hcomplete : (assemble ⟨[], [e']⟩ (markup rest)).Complete := by
    rw [hread]
    exact ⟨rfl, h.holds⟩
  -- An element in the rest would be a second one.
  rcases exists_spelledAll_of_complete hcomplete with ⟨others, hothers⟩
  rw [hothers.assemble_outside] at hread
  obtain ⟨-, rfl⟩ := List.cons.inj (congrArg Document.elements hread)
  cases hothers with
  | filler hfiller => exact hfiller

/-- Without its last character an element is not read as a text without faults
    that has all its tags. -/
theorem Spelled.markup_ne {e : Element} {element : List Char} (h : Spelled e element)
    {tags more : List Markup} (htags : ∀ fault, .broken fault ∉ tags)
    (hmore : markup element.dropLast = tags ++ more) : tags ≠ markup element := by
  rcases h.exists_last with ⟨front, m, tag, rfl, htag, hfront⟩
  rcases htag.broken_dropLast with ⟨fault, hbroken⟩
  have hne : tag ≠ [] := List.ne_nil_of_length_pos htag.length_pos
  have hlast : markup tag = [m] := by
    have hlast := htag.markup_append []
    rwa [List.append_nil, markup] at hlast
  rintro rfl
  -- Where the last tag is to be, there is a fault.
  rw [List.dropLast_append_of_ne_nil hne, hfront, hfront, hlast, hbroken,
    List.append_assoc] at hmore
  obtain ⟨rfl, -⟩ := List.cons.inj (List.append_cancel_left hmore)
  rw [hfront, hlast] at htags
  exact htags fault (List.mem_append_right _ List.mem_cons_self)

theorem Filler.markup_eq {text : List Char} (h : Filler text) : markup text = [] := by
  rw [← List.append_nil text, h, markup]

/-- A text of one element is not cut short by another one before the element ends. -/
theorem Frames.not_spelledAll {e e' : Element} {before element after cut rest : List Char}
    (h : Frames e before element after) (hcut : cut ++ rest = before ++ (element ++ after))
    (hlength : cut.length < (before ++ element).length) : ¬SpelledAll [e'] cut := by
  intro hall
  have hwhole : SpelledAll [e] (cut ++ rest) := spelledAll_singleton_iff.mpr ⟨_, _, _, hcut, h⟩
  have hrest : Filler rest := hwhole.filler_of_append hall
  have helement : SpelledAll [e] element := by
    have helement := SpelledAll.cons filler_nil h.element (.filler filler_nil)
    rwa [List.nil_append, List.append_nil] at helement
  -- What is cut off is passed over, so the cut text has all the tags of the element.
  have htags : markup cut = markup element := by
    have htags := congrArg markup hcut
    rwa [hall.unbroken.markup_append, hrest.markup_eq, h.before,
      helement.unbroken.markup_append, h.after.markup_eq, List.append_nil, List.append_nil] at htags
  -- But it is cut off before the last character of the element, where not all tags have been read.
  have hprefix : cut <+: before ++ element.dropLast := by
    have hdropLast : before ++ element.dropLast <+: cut ++ rest := by
      rw [hcut]
      exact (List.prefix_append_right_inj _).mpr
        ((List.dropLast_prefix element).trans (List.prefix_append _ _))
    refine List.prefix_of_prefix_length_le (List.prefix_append _ _) hdropLast ?_
    rw [List.length_append] at hlength
    rw [List.length_append, List.length_dropLast]
    omega
  rcases hprefix with ⟨more, hmore⟩
  have hread : markup element.dropLast = markup cut ++ markup more := by
    rw [← hall.unbroken.markup_append, hmore, h.before]
  exact h.element.markup_ne hall.unbroken hread htags

end Xml

end FunctionalOptions
