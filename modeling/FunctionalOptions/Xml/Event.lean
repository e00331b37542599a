import FunctionalOptions.Xml.Element

/-!
# Events

A text as a reader meets it that goes through it once and keeps nothing: one event
after another, with a check of the end tags made on the way. Only the names of the
open elements are remembered for that.

A stream ends where its list does, or at a fault, behind which nothing is read.

## Main definitions

* `Event`: What a reader of a text meets.
* `Event.ofMarkup`: The events of a list of tags.
* `Event.ofText`: The events of a text.
-/

namespace FunctionalOptions

namespace Xml

/-- What a reader of a text meets. -/
inductive Event where
  /-- `<name …>` -/
  | start (tag : Tag)
  /-- `<name …/>` -/
  | empty (tag : Tag)
  /-- `</name>` -/
  | close (name : String)
  /-- What stands between tags: text, comments, instructions and the like. -/
  | other
  | fault (fault : Fault)
deriving DecidableEq, Repr

namespace Event

/-- The events of a list of tags, given the names of the open elements, innermost
    first. An end tag has to name the innermost one. -/
def ofMarkup (inside : List String) : List Markup → List Event
  | [] => []
  | .start tag :: rest => .start tag :: ofMarkup (tag.name :: inside) rest
  | .empty tag :: rest => .empty tag :: ofMarkup inside rest
  | .close name :: rest =>
    match inside with
    | [] => [.fault (.endUnmatched name)]
    | innermost :: outer =>
      if name = innermost then .close name :: ofMarkup outer rest
      else [.fault (.endMismatched innermost name)]
  | .broken cause :: _ => [.fault cause]

/-- The events of a text. -/
def ofText (text : String) : List Event :=
  ofMarkup [] (markup (skipByteOrderMark text.toList))

end Event

end Xml

end FunctionalOptions
