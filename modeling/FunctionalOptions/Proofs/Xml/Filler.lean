import FunctionalOptions.Proofs.Xml.Elements

/-!
# What Stands between Tags

Text, references and comments mean nothing wherever they stand, as long as that
is between two tags and not inside one. Taking them out leaves the tags of a
text as they are, and so its elements.

Whether a place is between two tags depends on everything in front of it, since
a quote or a comment that has been begun takes in what looks like a tag. So the
front is described as far as it matters: tags that have been read to their
brackets, and between them anything that is passed over whatever follows.

## Main definitions

* `Filler`: A text that is passed over, whatever follows.
* `PlainText`: Characters, references and comments.
* `EndsBetween`: A text that ends between two tags.

## Theorems

* `filler_of_plainText`: Text and comments are passed over.
* `EndsBetween.ofText_eq`: Text and comments between tags do not change the
  elements of a text.
-/

namespace FunctionalOptions

namespace Xml

/-- The text is passed over, whatever follows. -/
def Filler (text : List Char) : Prop :=
  ∀ rest, markup (text ++ rest) = markup rest

/-- Characters that begin no markup, references, and comments. -/
inductive PlainText : List Char → Prop where
  | nil : PlainText []
  | char {c : Char} {rest : List Char} : c ≠ '<' → c ≠ '&' → PlainText rest → PlainText (c :: rest)
  | reference {name rest : List Char} : (∀ c ∈ name, c ≠ ';' ∧ c ≠ '&' ∧ c ≠ '<') →
    PlainText rest → PlainText ('&' :: (name ++ ';' :: rest))
  | comment {body rest : List Char} : CommentBody body → PlainText rest →
    PlainText ('<' :: '!' :: '-' :: '-' :: (body ++ '-' :: '-' :: '>' :: rest))

/-- A text that ends between two tags: tags read to their brackets, with fillers
    around them. -/
inductive EndsBetween : List Char → Prop where
  | nil : EndsBetween []
  | tag {c : Char} {tag rest : List Char} : Passes (c :: tag) → c ≠ '!' → c ≠ '?' →
    EndsBetween rest → EndsBetween ('<' :: c :: (tag ++ '>' :: rest))
  | filler {text rest : List Char} : Filler text → EndsBetween rest → EndsBetween (text ++ rest)

/-- A reference is passed over up to its end. -/
theorem markup_afterReference {text after : List Char} (h : afterReference text = .ok after) :
    markup ('&' :: text) = markup after := by
  rw [markup]
  split
  · next hfound =>
    rw [h] at hfound
    cases hfound
    rfl
  · next hfault =>
    rw [h] at hfault
    cases hfault

/-- A reference with a name is passed over up to its semicolon. -/
theorem markup_reference {name : List Char} (h : ∀ c ∈ name, c ≠ ';' ∧ c ≠ '&' ∧ c ≠ '<')
    (rest : List Char) : markup ('&' :: (name ++ ';' :: rest)) = markup rest := by
  have hname : ∀ c ∈ name, (c != ';' && c != '&' && c != '<') = true := by
    intro c hc
    simpa [and_assoc] using h c hc
  refine markup_afterReference ?_
  rw [afterReference, List.dropWhile_append_of_pos hname]
  rfl

/-- Text and comments are passed over. -/
theorem filler_of_plainText {text : List Char} (h : PlainText text) : Filler text := by
  intro rest
  induction h with
  | nil => rfl
  | char hangle hampersand _ ih => rw [List.cons_append, markup_char hangle hampersand, ih]
  | @reference name more hname _ ih =>
      have hreference := markup_reference hname (more ++ rest)
      rw [ih] at hreference
      simpa only [List.cons_append, List.append_assoc] using hreference
  | @comment body more hbody _ ih =>
      have hcomment := markup_comment hbody (more ++ rest)
      rw [ih] at hcomment
      simpa only [List.cons_append, List.append_assoc] using hcomment

/-- What follows a text that ends between two tags is read as if it stood
    alone. -/
theorem EndsBetween.markup_append {front : List Char} (h : EndsBetween front) (rest : List Char) :
    markup (front ++ rest) = markup front ++ markup rest := by
  induction h with
  | nil => rw [markup, List.nil_append, List.nil_append]
  | @tag c tag more htag hdeclaration hinstruction _ ih =>
      -- A tag that has its bracket is read the same whatever follows.
      have hread := markup_tag htag hdeclaration hinstruction
      simp only [List.cons_append, List.append_assoc, hread, ih]
  | filler hfiller _ ih => rw [List.append_assoc, hfiller, hfiller, ih]

/-- The mark in front of a text is no markup. -/
theorem markup_skipByteOrderMark (text : List Char) :
    markup (skipByteOrderMark text) = markup text := by
  cases text with
  | nil => rfl
  | cons c rest =>
      by_cases hmark : c = byteOrderMark
      · rw [skipByteOrderMark, if_pos hmark, hmark, markup_char (by decide) (by decide)]
      · rw [skipByteOrderMark, if_neg hmark]

/-- Text and comments between tags do not change the elements of a text. -/
theorem EndsBetween.ofText_eq {front text : String} (hfront : EndsBetween front.toList)
    (htext : PlainText text.toList) (rest : String) :
    Document.ofText (front ++ text ++ rest) = Document.ofText (front ++ rest) := by
  have hfiller := filler_of_plainText htext rest.toList
  simp only [Document.ofText, markup_skipByteOrderMark, String.toList_append, List.append_assoc,
    hfront.markup_append, hfiller]

end Xml

end FunctionalOptions
