/-!
# Splitting Texts

A text cut at every occurrence of one character. The pieces may be empty, and
there is always at least one: a text without the character is a single piece.

## Main definitions

* `splitAt`: The pieces of a text.

## Theorems

* `splitAt_ne_nil`: There is at least one piece.
-/

namespace FunctionalOptions

namespace Text

/-- The pieces of a text between the occurrences of a mark. -/
def splitAt (mark : Char) : List Char → List (List Char)
  | [] => [[]]
  | c :: rest =>
    if c = mark then [] :: splitAt mark rest
    else match splitAt mark rest with
      | [] => [[c]]
      | piece :: others => (c :: piece) :: others

/-- There is at least one piece. -/
theorem splitAt_ne_nil (mark : Char) (text : List Char) : splitAt mark text ≠ [] := by
  cases text with
  | nil => simp [splitAt]
  | cons c rest =>
    simp only [splitAt]
    split
    · simp
    · split <;> simp

end Text

end FunctionalOptions
