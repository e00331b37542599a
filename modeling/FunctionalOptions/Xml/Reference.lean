import FunctionalOptions.Text.Ascii

/-!
# References in Attribute Values

Attribute values name characters that cannot stand for themselves: by one of
five predefined names, or by a number in decimal or hexadecimal notation. A
reference runs from an ampersand to the next semicolon, and a second ampersand
before that leaves it open.

Faults say where in the value they are. Places are counted in bytes, from the
ampersand for a reference that is left open, and from the character behind it
for a name nobody knows.

## Main definitions

* `NumberFault`: What is wrong with the number of a character.
* `ReferenceFault`: What is wrong with a reference.
* `expand`: A value with its references replaced by what they name.
-/

namespace FunctionalOptions

namespace Xml

/-- What is wrong with the number of a character. -/
inductive NumberFault where
  | signed
  | invalidDigit
  | noDigits
  | tooLarge
  | zero
  /-- The number belongs to no character. -/
  | noCharacter (number : Nat)
deriving DecidableEq, Repr

namespace NumberFault

/-- The fault in words. -/
def message : NumberFault → String
  | signed => "unexpected number sign"
  | invalidDigit => "invalid digit found in string"
  | noDigits => "cannot parse integer from empty string"
  | tooLarge => "number too large to fit in target type"
  | zero => "0x0 character is not permitted in XML"
  | noCharacter number => "`" ++ toString number ++ "` is not a valid codepoint"

/-- The digits do not make up a number at all. -/
def isFormat : NumberFault → Bool
  | invalidDigit | noDigits | tooLarge => true
  | _ => false

/-- The messages of a report, outermost first. A fault of the digits is one of
    the number notation and is reported as such once more. -/
def causes (fault : NumberFault) : List String :=
  if fault.isFormat then [fault.message, fault.message] else [fault.message]

end NumberFault

/-- What is wrong with a reference. The places count bytes of the value. -/
inductive ReferenceFault where
  /-- Nothing goes by this name. -/
  | unrecognized (first last : Nat) (name : String)
  /-- No semicolon ends the reference. -/
  | notClosed (first last : Nat)
  | badNumber (fault : NumberFault)
deriving DecidableEq, Repr

namespace ReferenceFault

/-- The fault in words. -/
def message : ReferenceFault → String
  | unrecognized first last name =>
    "at " ++ toString first ++ ".." ++ toString last ++ ": unrecognized entity `" ++ name ++ "`"
  | notClosed first last =>
    "Error while escaping character at range " ++ toString first ++ ".." ++ toString last ++
      ": Cannot find ';' after '&'"
  | badNumber fault => "invalid character reference: " ++ fault.message

/-- The messages of a report, outermost first. -/
def causes (fault : ReferenceFault) : List String :=
  fault.message :: match fault with
    | badNumber number => number.causes
    | _ => []

end ReferenceFault

/-- The number a list of digits writes, continued from the number so far. It
    has to fit 32 bits. -/
def readDigits (radix : Nat) (number : Nat) : List Char → Except NumberFault Nat
  | [] => .ok number
  | c :: rest =>
    match (Text.hexDigit? c).filter (· < radix) with
    | none => .error .invalidDigit
    | some digit =>
      if number * radix + digit < 2 ^ 32 then readDigits radix (number * radix + digit) rest
      else .error .tooLarge

/-- The number a text writes in the given radix. A sign is never part of it. -/
def readNumber (radix : Nat) (text : List Char) : Except NumberFault Nat :=
  match text with
  | [] => .error .noDigits
  | c :: _ => if c = '+' ∨ c = '-' then .error .signed else readDigits radix 0 text

/-- The character a number reference names, given what follows its `#`. -/
def numberedChar (text : List Char) : Except NumberFault Char := do
  let number ← match text with
    | 'x' :: digits => readNumber 16 digits
    | _ => readNumber 10 text
  if number = 0 then throw .zero
  else if Nat.isValidChar number then return Char.ofNat number
  else throw (.noCharacter number)

/-- The character a predefined name stands for. -/
def predefined? (name : String) : Option Char :=
  if name = "lt" then some '<'
  else if name = "gt" then some '>'
  else if name = "amp" then some '&'
  else if name = "apos" then some '\''
  else if name = "quot" then some '"'
  else none

/-- The character a reference names. The place is that of its ampersand. -/
def resolve (place : Nat) (name : List Char) : Except ReferenceFault Char :=
  match name with
  | '#' :: number =>
    match numberedChar number with
    | .ok c => .ok c
    | .error fault => .error (.badNumber fault)
  | _ =>
    match predefined? (String.ofList name) with
    | some c => .ok c
    | none =>
      .error (.unrecognized (place + 1) (place + 1 + Text.byteLength name) (String.ofList name))

/-- The character can be part of a reference. -/
def inReference (c : Char) : Bool :=
  c != '&' && c != ';'

/-- The rest of a value, from a place in it, with its references replaced.
    `size` is the number of bytes of the whole value. -/
def expandFrom (size place : Nat) (value : List Char) : Except ReferenceFault (List Char) :=
  match value with
  | [] => .ok []
  | c :: rest =>
    if c = '&' then
      match _h : rest.dropWhile inReference with
      | ';' :: after => do
        let name := rest.takeWhile inReference
        let char ← resolve place name
        let expanded ← expandFrom size (place + 2 + Text.byteLength name) after
        return char :: expanded
      | _ => .error (.notClosed place size)
    else do
      let expanded ← expandFrom size (place + c.utf8Size) rest
      return c :: expanded
termination_by value.length
decreasing_by
  · have hlen := congrArg List.length _h
    have hsub := (List.dropWhile_sublist (l := rest) inReference).length_le
    simp only [List.length_cons] at hlen ⊢
    omega
  · simp only [List.length_cons]
    omega

/-- A value with its references replaced by what they name. -/
def expand (value : List Char) : Except ReferenceFault (List Char) :=
  expandFrom (Text.byteLength value) 0 value

end Xml

end FunctionalOptions
