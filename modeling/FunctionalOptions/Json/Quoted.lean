import FunctionalOptions.Json.Basic
import FunctionalOptions.Text.Ascii

/-!
# String Literals

A string literal writes text between two quotes. Escapes name a character by a
letter or by the four hexadecimal digits of a UTF-16 unit, and a character
outside the basic plane is named by two such units in a row.

A literal can therefore be well-formed without writing any text, when it names
half of a pair alone. Whoever reads it fails at that half; whoever skips it
does not notice. The units are for this reason gathered first and joined
afterwards, and a literal that turns out to be cut short still tells whether a
reader would have failed earlier.

## Main definitions

* `CodeUnit`: A character, or half of a pair named by an escape.
* `scanQuoted`: The units of a literal after its opening quote, and what
  follows the closing one.
* `join?`: The text of a list of units.
* `readQuoted?`: The text of a whole literal.
* `writeQuoted`: The literal of a text.

## Theorems

* `scanQuoted_length`: What follows a literal is shorter than what it began.
-/

namespace FunctionalOptions

namespace Json

/-- What one character or escape of a literal stands for. -/
inductive CodeUnit where
  | scalar (char : Char)
  /-- Half of a surrogate pair, by its number. -/
  | half (number : Nat)
deriving DecidableEq, Repr

/-- The number is that of the first half of a pair. -/
def isLeading (n : Nat) : Bool := 0xD800 ≤ n && n ≤ 0xDBFF

/-- The number is that of the second half of a pair. -/
def isTrailing (n : Nat) : Bool := 0xDC00 ≤ n && n ≤ 0xDFFF

/-- The unit a four-digit escape names. -/
def CodeUnit.ofNat (n : Nat) : CodeUnit :=
  if isLeading n || isTrailing n then .half n else .scalar (Char.ofNat n)

/-- The character two halves of a pair name together. -/
def pairChar (leading trailing : Nat) : Char :=
  Char.ofNat (0x10000 + (leading - 0xD800) * 0x400 + (trailing - 0xDC00))

/-- The text of a list of units, unless a half stands alone. -/
def join? : List CodeUnit → Option (List Char)
  | [] => some []
  | .scalar c :: rest => (join? rest).map (c :: ·)
  | .half leading :: .half trailing :: rest =>
    if isLeading leading && isTrailing trailing then
      (join? rest).map (pairChar leading trailing :: ·)
    else none
  | .half _ :: _ => none

/-- A half that stands alone has been seen. The first half of a pair at the
    end of the list still waits for the second. -/
def sawLoneHalf : List CodeUnit → Bool
  | [] => false
  | .scalar _ :: rest => sawLoneHalf rest
  | [.half n] => !isLeading n
  | .half leading :: .half trailing :: rest =>
    if isLeading leading && isTrailing trailing then sawLoneHalf rest else true
  | .half _ :: _ => true

/-- The number four hexadecimal digits write. -/
def hexNumber? (a b c d : Char) : Option Nat := do
  let a ← Text.hexDigit? a
  let b ← Text.hexDigit? b
  let c ← Text.hexDigit? c
  let d ← Text.hexDigit? d
  return ((a * 16 + b) * 16 + c) * 16 + d

/-- The character an escape letter names. -/
def escapeLetter? : Char → Option Char
  | '"' => some '"'
  | '\\' => some '\\'
  | '/' => some '/'
  | 'b' => some '\x08'
  | 'f' => some '\x0c'
  | 'n' => some '\n'
  | 'r' => some '\r'
  | 't' => some '\t'
  | _ => none

/-- The failure at an escape with too few digits. The digits are counted in
    bytes before they are looked at, so the text ends too early only when fewer
    than four bytes are left of it. -/
def shortEscape (rest : List Char) : Failure :=
  if Text.byteLength rest < 4 then .truncated else .malformed

/-- The units of a literal and what follows it, or the failure that ends it. -/
structure Scan where
  units : List CodeUnit
  rest : Except Failure (List Char)

/-- Put a unit in front of the ones already gathered. -/
def Scan.push (unit : CodeUnit) (scan : Scan) : Scan :=
  { scan with units := unit :: scan.units }

/-- The units of a literal whose opening quote has been passed. -/
def scanQuoted : List Char → Scan
  | [] => ⟨[], .error .truncated⟩
  | '"' :: rest => ⟨[], .ok rest⟩
  | ['\\'] => ⟨[], .error .truncated⟩
  | '\\' :: 'u' :: a :: b :: c :: d :: rest =>
    match hexNumber? a b c d with
    | some n => (scanQuoted rest).push (.ofNat n)
    | none => ⟨[], .error .malformed⟩
  | '\\' :: 'u' :: rest => ⟨[], .error (shortEscape rest)⟩
  | '\\' :: letter :: rest =>
    match escapeLetter? letter with
    | some c => (scanQuoted rest).push (.scalar c)
    | none => ⟨[], .error .malformed⟩
  | c :: rest =>
    if c.toNat < 0x20 then ⟨[], .error .malformed⟩
    else (scanQuoted rest).push (.scalar c)

/-- What follows a literal is shorter than the text the literal began. -/
theorem scanQuoted_length {text rest : List Char}
    (h : (scanQuoted text).rest = .ok rest) : rest.length < text.length := by
  fun_induction scanQuoted text with
  | case1 => simp at h
  | case2 r =>
    simp only [Except.ok.injEq] at h
    simp only [h, List.length_cons]
    omega
  | case3 => simp at h
  | case4 a b c d r n _ ih =>
    have := ih h
    simp only [List.length_cons]
    omega
  | case5 => simp at h
  | case6 => simp at h
  | case7 letter r _ _ c _ ih =>
    have := ih h
    simp only [List.length_cons]
    omega
  | case8 => simp at h
  | case9 => simp at h
  | case10 c r _ _ _ _ _ _ ih =>
    have := ih h
    simp only [List.length_cons]
    omega

/-- The text of a whole literal: one quoted string with nothing after it. -/
def readQuoted? (literal : List Char) : Option (List Char) :=
  match literal with
  | '"' :: body =>
    match scanQuoted body with
    | ⟨units, .ok []⟩ => join? units
    | _ => none
  | _ => none

/-- The hexadecimal digit of a number below sixteen, in small letters. -/
def hexDigitChar (n : Nat) : Char :=
  if n < 10 then Char.ofNat ('0'.toNat + n) else Char.ofNat ('a'.toNat + (n - 10))

/-- How a character is written inside a literal. Only the quote, the backslash
    and the control characters need an escape; five of the latter have a letter
    and the others take their number. -/
def writeChar (c : Char) : List Char :=
  if c = '"' then ['\\', '"']
  else if c = '\\' then ['\\', '\\']
  else if c = '\x08' then ['\\', 'b']
  else if c = '\x0c' then ['\\', 'f']
  else if c = '\n' then ['\\', 'n']
  else if c = '\r' then ['\\', 'r']
  else if c = '\t' then ['\\', 't']
  else if c.toNat < 0x20 then
    ['\\', 'u', '0', '0', hexDigitChar (c.toNat / 16), hexDigitChar (c.toNat % 16)]
  else [c]

/-- The literal of a text. -/
def writeQuoted (text : String) : String :=
  String.ofList ('"' :: text.toList.flatMap writeChar ++ ['"'])

end Json

end FunctionalOptions
