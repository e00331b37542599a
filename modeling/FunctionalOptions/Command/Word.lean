/-!
# Words of a Command Line

A command line is a list of words. A word that begins with two dashes names an
option in full and may bring the value of the option with it, behind an equals
sign. A word that begins with one dash names an option by a letter and may
bring the value right behind it. Two dashes alone end the options. A single
dash is a word like any other.

## Main definitions

* `Word`: What a word of a command line is.
* `Word.ofText`: The word that a text is.
-/

namespace FunctionalOptions

namespace Command

/-- What a word of a command line is. -/
inductive Word where
  /-- Two dashes and the name of an option, with the value behind an equals
      sign if there is one. -/
  | long (name : String) (value : Option String)
  /-- One dash and the letter of an option, with what stands behind it. -/
  | short (letter : Char) (rest : List Char)
  /-- Two dashes alone. -/
  | ending
  /-- A word that names no option. -/
  | plain (text : String)
deriving DecidableEq, Repr

namespace Word

/-- The word made of two dashes and the given characters. -/
def ofLong (characters : List Char) : Word :=
  match characters with
  | [] => .ending
  | _ =>
    .long (String.ofList (characters.takeWhile (· ≠ '=')))
      (match characters.dropWhile (· ≠ '=') with
        | [] => none
        | _ :: value => some (String.ofList value))

/-- The word that a text is. -/
def ofText (text : String) : Word :=
  match text.toList with
  | '-' :: '-' :: rest => ofLong rest
  | '-' :: letter :: rest => .short letter rest
  | _ => .plain text

/-- The value that the characters behind a letter bring with them. An equals
    sign sets the value apart and is not part of it. -/
def attached? : List Char → Option String
  | [] => none
  | '=' :: value => some (String.ofList value)
  | value => some (String.ofList value)

/-- The word names no option. -/
def isPlain : Word → Bool
  | .plain _ => true
  | _ => false

end Word

end Command

end FunctionalOptions
