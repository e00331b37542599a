import FunctionalOptions.Unicode.Ranges

/-!
# The White_Space Property

Which characters count as blank: the ASCII blanks with vertical tab and form
feed, the no-break space, the typographic spaces and the line separators. The
zero-width characters are outside it, so trimming keeps them.

## Main definitions

* `whiteSpaceRanges`: The code points with the property.
* `isWhiteSpace`: The property of a character.
* `trim`: A text without the blanks at its two ends.
-/

namespace FunctionalOptions

namespace Unicode

/-- The code points with the White_Space property, in ascending order. -/
def whiteSpaceRanges : Ranges := [
  (0x9, 0xD), (0x20, 0x20), (0x85, 0x85), (0xA0, 0xA0), (0x1680, 0x1680), (0x2000, 0x200A),
  (0x2028, 0x2029), (0x202F, 0x202F), (0x205F, 0x205F), (0x3000, 0x3000)]

/-- The character has the White_Space property. -/
def isWhiteSpace (c : Char) : Bool :=
  whiteSpaceRanges.holds c

/-- A text without the blanks at its two ends. Blanks inside stay. -/
def trim (text : List Char) : List Char :=
  ((text.dropWhile isWhiteSpace).reverse.dropWhile isWhiteSpace).reverse

end Unicode

end FunctionalOptions
