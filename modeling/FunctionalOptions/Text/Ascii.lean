/-!
# ASCII in Texts

The few facts about characters that the two data formats share: which
characters separate, which ones are hexadecimal digits, and how long a text is
when it is counted in bytes. All of them concern ASCII by the rules of the
formats, so no Unicode property is involved.

## Main definitions

* `isBlank`: The four characters that separate.
* `hexDigit?`: The value of a hexadecimal digit.
* `byteLength`: The number of bytes of a text.
* `after?`: What follows the first occurrence of a mark.

## Theorems

* `after?_length`: What follows a mark is no longer than the text.
-/

namespace FunctionalOptions

namespace Text

/-- The four characters that separate: space, tab, line feed and carriage
    return. -/
def isBlank (c : Char) : Bool :=
  c = ' ' || c = '\t' || c = '\n' || c = '\r'

/-- The value of a hexadecimal digit, in capitals or small letters. -/
def hexDigit? (c : Char) : Option Nat :=
  if '0' ≤ c ∧ c ≤ '9' then some (c.toNat - '0'.toNat)
  else if 'a' ≤ c ∧ c ≤ 'f' then some (c.toNat - 'a'.toNat + 10)
  else if 'A' ≤ c ∧ c ≤ 'F' then some (c.toNat - 'A'.toNat + 10)
  else none

/-- The number of bytes a text takes in UTF-8. -/
def byteLength (text : List Char) : Nat :=
  text.foldr (fun c n => c.utf8Size + n) 0

/-- What follows the first occurrence of a mark. -/
def after? (mark : List Char) : List Char → Option (List Char)
  | [] => if mark.isEmpty then some [] else none
  | c :: rest =>
    if mark.isPrefixOf (c :: rest) then some ((c :: rest).drop mark.length)
    else after? mark rest

/-- What follows a mark is no longer than the text. -/
theorem after?_length {mark text rest : List Char} (h : after? mark text = some rest) :
    rest.length ≤ text.length := by
  fun_induction after? mark text with
  | case1 =>
    simp only [Option.some.injEq] at h
    subst h
    exact Nat.le_refl _
  | case2 => simp at h
  | case3 c text _ =>
    simp only [Option.some.injEq] at h
    rw [← h, List.length_drop]
    exact Nat.sub_le _ _
  | case4 c text _ ih =>
    have := ih h
    simp only [List.length_cons]
    omega

end Text

end FunctionalOptions
