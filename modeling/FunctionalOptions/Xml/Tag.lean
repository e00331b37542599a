import FunctionalOptions.Xml.Reference

/-!
# Tags and their Attributes

A tag is a name and whatever stands between the name and the end of the tag.
That rest is looked at only when an attribute is asked for, and then all of it
is: the attributes are found one after the other and their values are expanded
in that order, so a fault in any of them is a fault of the question.

Finding the attributes is lenient. What has no equals sign, no quotes or the
key of an earlier attribute is passed over, and the search goes on at a place
that depends on what was wrong. Something is lost that way, and nothing is ever
invented: every attribute found is a stretch of the tag.

## Main definitions

* `Tag`: A name and the text behind it.
* `scanAttributes`: The attributes of a text, unexpanded.
* `Tag.attributes`: The attributes of a tag, expanded.
-/

namespace FunctionalOptions

namespace Xml

/-- A tag: its name, and the text its attributes are found in. -/
structure Tag where
  name : String
  rest : List Char
deriving DecidableEq, Repr

/-- The character can continue a key. -/
def inKey (c : Char) : Bool :=
  !(c = '=' || Text.isBlank c)

/-- The character encloses a value. -/
def isQuote (c : Char) : Bool :=
  c = '"' || c = '\''

/-- The text from its next blank on. -/
def fromBlank (text : List Char) : List Char :=
  text.dropWhile (!Text.isBlank ·)

theorem fromBlank_length (text : List Char) : (fromBlank text).length ≤ text.length :=
  (List.dropWhile_sublist _).length_le

/-- The keys and values found in the text of a tag, given the keys that are
    taken. A key is any character with what follows it up to an equals sign or
    a blank. It is taken as soon as its equals sign is found, even when no value
    comes after it. -/
def scanAttributes (taken : List (List Char)) (text : List Char) :
    List (List Char × List Char) :=
  match _hkey : text.dropWhile Text.isBlank with
  | [] => []
  | first :: more =>
    let key := first :: more.takeWhile inKey
    match _heq : (more.dropWhile inKey).dropWhile Text.isBlank with
    | [] => []
    | mark :: value =>
      if mark != '=' then scanAttributes taken (mark :: value)
      else if taken.contains key then scanAttributes taken (fromBlank value)
      else
        match _hval : value.dropWhile Text.isBlank with
        | [] => []
        | quote :: body =>
          if isQuote quote then
            match _hend : body.dropWhile (· != quote) with
            | [] => []
            | _ :: after =>
              (key, body.takeWhile (· != quote)) :: scanAttributes (key :: taken) after
          else scanAttributes (key :: taken) (fromBlank body)
termination_by text.length
decreasing_by
  all_goals
    have hkey := congrArg List.length _hkey
    have heq := congrArg List.length _heq
    have h1 := (List.dropWhile_sublist (l := text) Text.isBlank).length_le
    have h2 := (List.dropWhile_sublist (l := more.dropWhile inKey) Text.isBlank).length_le
    have h3 := (List.dropWhile_sublist (l := more) inKey).length_le
    simp only [List.length_cons] at hkey heq
  · simp only [List.length_cons]
    omega
  · have := fromBlank_length value
    omega
  · have hval := congrArg List.length _hval
    have hend := congrArg List.length _hend
    have h4 := (List.dropWhile_sublist (l := value) Text.isBlank).length_le
    have h5 := (List.dropWhile_sublist (l := body) (· != quote)).length_le
    simp only [List.length_cons] at hval hend
    omega
  · have hval := congrArg List.length _hval
    have h4 := (List.dropWhile_sublist (l := value) Text.isBlank).length_le
    have := fromBlank_length body
    simp only [List.length_cons] at hval
    omega

/-- The expanded values of attributes, in order. The first fault ends the
    list. -/
def expandValues : List (List Char × List Char) → Except ReferenceFault (List (String × String))
  | [] => .ok []
  | (key, value) :: rest => do
    let value ← expand value
    let rest ← expandValues rest
    return (String.ofList key, String.ofList value) :: rest

namespace Tag

/-- The tag with the given text between its angle brackets: the name goes up to
    the first blank. -/
def ofText (text : List Char) : Tag :=
  ⟨String.ofList (text.takeWhile (!Text.isBlank ·)), fromBlank text⟩

/-- The attributes of a tag, expanded. -/
def attributes (tag : Tag) : Except ReferenceFault (List (String × String)) :=
  expandValues (scanAttributes [] tag.rest)

end Tag

end Xml

end FunctionalOptions
