/-!
# Faults of a Markup Text

What can be wrong with the markup of a text. Markup that is begun and not
finished breaks the syntax; markup that is finished and does not fit together,
such as an end tag for another element, leaves the document ill-formed.

A fault is worded once and shown twice. A full message names the kind of fault
in front of the fault itself, and a report that lists the causes of an error
gives the full message first and the bare wording after it.

## Main definitions

* `Fault`: What is wrong.
* `Fault.detail`: The fault itself in words.
* `Fault.message`: The full message.
* `Fault.causes`: The messages of a report, outermost first.
-/

namespace FunctionalOptions

namespace Xml

/-- What is wrong with the markup of a text. -/
inductive Fault where
  | commentNotClosed
  | cdataNotClosed
  | doctypeNotClosed
  | instructionNotClosed
  | declarationNotClosed
  | tagNotClosed
  /-- A tag that ends inside a value begun with the quote. -/
  | valueNotClosed (quote : Char)
  | unknownMarkup
  | referenceNotClosed
  | doctypeUnnamed
  /-- An end tag for another element than the innermost open one. -/
  | endMismatched (expected found : String)
  /-- An end tag with no element open. -/
  | endUnmatched (found : String)
deriving DecidableEq, Repr

namespace Fault

/-- The markup was begun and not finished, or not recognised. -/
def isSyntactic : Fault → Bool
  | referenceNotClosed | doctypeUnnamed | endMismatched .. | endUnmatched .. => false
  | _ => true

/-- The words for a mark that never came. -/
def missing (subject mark : String) : String :=
  subject ++ " not closed: `" ++ mark ++ "` not found before end of input"

/-- The fault itself in words. -/
def detail : Fault → String
  | commentNotClosed => missing "comment" "-->"
  | cdataNotClosed => missing "CDATA" "]]>"
  | doctypeNotClosed => missing "DOCTYPE" ">"
  | instructionNotClosed => missing "processing instruction" "?>"
  | declarationNotClosed => missing "XML declaration" "?>"
  | tagNotClosed => missing "tag" ">"
  | valueNotClosed quote => missing "attribute value" (String.singleton quote)
  | unknownMarkup => "unknown or missed symbol in markup"
  | referenceNotClosed => missing "entity or character reference" ";"
  | doctypeUnnamed =>
    "`<!DOCTYPE>` declaration does not contain a name of a document type"
  | endMismatched expected found =>
    "expected `</" ++ expected ++ ">`, but `</" ++ found ++ ">` was found"
  | endUnmatched found => "close tag `</" ++ found ++ ">` does not match any open tag"

/-- The full message, which begins with the kind of fault. -/
def message (fault : Fault) : String :=
  (if fault.isSyntactic then "syntax error: " else "ill-formed document: ") ++ fault.detail

/-- The messages of a report, outermost first. -/
def causes (fault : Fault) : List String :=
  [fault.message, fault.detail]

end Fault

end Xml

end FunctionalOptions
