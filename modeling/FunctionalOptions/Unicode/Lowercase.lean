import FunctionalOptions.Unicode.CaseMapping
import FunctionalOptions.Unicode.Cased

/-!
# Lowering a Whole Text

The small form of a text is the small form of its characters, but for one rule
that looks at neighbours: a capital sigma that ends a word becomes the final
`ς` rather than `σ`. The sigma ends a word when a cased character stands before
it and none stands after it, the case-ignorable characters between them being
looked through on both sides.

## Main definitions

* `meetsCased`: The next character that matters is cased.
* `lowercase`: The small form of a text.
-/

namespace FunctionalOptions

namespace Unicode

/-- The capital sigma, the one letter whose small form depends on its place. -/
def capitalSigma : Char := 'Σ'

/-- The first character that is not case-ignorable is cased. Read forward this
    looks at what follows a letter; read on the reversed text, at what
    precedes it. -/
def meetsCased (text : List Char) : Bool :=
  match text.dropWhile isCaseIgnorable with
  | [] => false
  | c :: _ => isCased c

/-- The small form of a text, whose part already passed is given in reverse. -/
def lowercaseFrom (passed : List Char) : List Char → List Char
  | [] => []
  | c :: rest =>
    let small :=
      if c = capitalSigma then
        if meetsCased passed && !meetsCased rest then ['ς'] else ['σ']
      else toLower c
    small ++ lowercaseFrom (c :: passed) rest

/-- The small form of a text. -/
def lowercase (text : String) : String :=
  String.ofList (lowercaseFrom [] text.toList)

end Unicode

end FunctionalOptions
