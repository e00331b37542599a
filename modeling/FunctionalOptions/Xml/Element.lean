import FunctionalOptions.Xml.Markup

/-!
# Elements

The elements of a text with the elements inside them. As with the trees of a
data text, faults are part of the result: an element records how it ended, and
one that never got its end tag records what came instead. Walking the elements
in the order of the text therefore meets the faults of the text in their
order, mixed with whatever else the walker has to complain about.

A fault, or the end of the text, ends all the elements that are open at once.

## Main definitions

* `Ending`: How an element ended.
* `Element`: An element with its contents.
* `assemble`: The elements of a list of tags.
* `Document.ofText`: The elements of a text.
-/

namespace FunctionalOptions

namespace Xml

/-- How an element ended. -/
inductive Ending where
  /-- By its end tag. -/
  | closed
  /-- With the text, before any end tag came. -/
  | endOfText
  /-- At a place where the markup is at fault. -/
  | fault (fault : Fault)
deriving DecidableEq, Repr

/-- An element: a tag on its own, or a start tag with what stands behind it. -/
inductive Element where
  | empty (tag : Tag)
  | node (tag : Tag) (children : List Element) (ending : Ending)
deriving Repr

/-- The tag that names an element. -/
def Element.tag : Element → Tag
  | .empty tag => tag
  | .node tag _ _ => tag

/-- An element whose end tag has not come yet, its contents in reverse. -/
structure OpenElement where
  tag : Tag
  children : List Element

/-- The element, ended as given. -/
def OpenElement.close (ending : Ending) (element : OpenElement) : Element :=
  .node element.tag element.children.reverse ending

/-- The elements of a text outside all others, and how the text ended. -/
structure Document where
  elements : List Element
  ending : Ending

/-- The elements still open, innermost first, and the finished ones outside all
    of them in reverse. -/
structure Assembly where
  inside : List OpenElement
  finished : List Element

namespace Assembly

/-- Take in a finished element, at the end of the innermost open one. -/
def add (element : Element) (a : Assembly) : Assembly :=
  match a.inside with
  | [] => ⟨[], element :: a.finished⟩
  | o :: outer => ⟨{ o with children := element :: o.children } :: outer, a.finished⟩

/-- The outermost of the open elements once all of them end in the same way,
    `inner` being what stands last inside the innermost. -/
def nest (ending : Ending) (inner : Option Element) : List OpenElement → Option Element
  | [] => inner
  | o :: outer =>
    nest ending (some (OpenElement.close ending ⟨o.tag, inner.toList ++ o.children⟩)) outer

/-- The document whose text stops here. -/
def stop (ending : Ending) (a : Assembly) : Document :=
  ⟨((nest ending none a.inside).toList ++ a.finished).reverse, ending⟩

end Assembly

/-- The elements of a list of tags. An end tag has to name the innermost open
    element. -/
def assemble (a : Assembly) : List Markup → Document
  | [] => a.stop .endOfText
  | .start tag :: rest => assemble ⟨⟨tag, []⟩ :: a.inside, a.finished⟩ rest
  | .empty tag :: rest => assemble (a.add (.empty tag)) rest
  | .close name :: rest =>
    match a.inside with
    | [] => a.stop (.fault (.endUnmatched name))
    | o :: outer =>
      if name = o.tag.name then
        assemble (Assembly.add (o.close .closed) ⟨outer, a.finished⟩) rest
      else a.stop (.fault (.endMismatched o.tag.name name))
  | .broken fault :: _ => a.stop (.fault fault)

/-- The mark some writers put in front of a text to show its encoding. -/
def byteOrderMark : Char := '\ufeff'

/-- The text without the mark in front of it. -/
def skipByteOrderMark : List Char → List Char
  | c :: rest => if c = byteOrderMark then rest else c :: rest
  | [] => []

/-- The elements of a text. -/
def Document.ofText (text : String) : Document :=
  assemble ⟨[], []⟩ (markup (skipByteOrderMark text.toList))

end Xml

end FunctionalOptions
