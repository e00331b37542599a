import FunctionalOptions.Json.Number
import FunctionalOptions.Json.Quoted

/-!
# JSON Tokens

A text as the list of its marks, words, numbers and strings. Blanks only
separate, and nothing of the grammar beyond single tokens is known here.

The list ends at the first place where no token can be read. Its last entry
then says why, and whether it was a string that could not be finished: where
a member name is expected, the beginning of a string is already the right
thing, so what is wrong is what the string says, while any other token is wrong
whatever it is.

## Main definitions

* `Token`: A token, or the place where tokens end too early.
* `tokens`: The tokens of a text.
-/

namespace FunctionalOptions

namespace Json

/-- A token of a text. The last two stand for the rest of a text that cannot be
    read. -/
inductive Token where
  | openArray
  | closeArray
  | openObject
  | closeObject
  | comma
  | colon
  | null
  | bool (value : Bool)
  | number (literal : String)
  | string (text : Option String)
  | brokenString (stop : Stop)
  | brokenWord (stop : Stop)
deriving DecidableEq, Repr

/-- What follows a word that the text has to begin with. -/
def scanWord : List Char → List Char → Except Stop (List Char)
  | [], text => .ok text
  | _ :: _, [] => .error .truncated
  | w :: word, c :: text => if w = c then scanWord word text else .error .malformed

/-- What follows a word is no longer than the text that begins with it. -/
theorem scanWord_length {word text rest : List Char} (h : scanWord word text = .ok rest) :
    rest.length ≤ text.length := by
  fun_induction scanWord word text with
  | case1 =>
    simp only [Except.ok.injEq] at h
    subst h
    exact Nat.le_refl _
  | case2 => simp at h
  | case3 w word text ih =>
    have := ih h
    simp only [List.length_cons]
    omega
  | case4 => simp at h

/-- The stop of a string that was cut short: a reader may have failed at a
    lone half before the failure that ended the literal. -/
def stopInString (units : List CodeUnit) (failure : Failure) : Stop :=
  ⟨if sawLoneHalf units then .malformed else failure, failure⟩

/-- The tokens of a text. -/
def tokens : List Char → List Token
  | [] => []
  | c :: rest =>
    if Text.isBlank c then tokens rest
    else match c with
      | '[' => .openArray :: tokens rest
      | ']' => .closeArray :: tokens rest
      | '{' => .openObject :: tokens rest
      | '}' => .closeObject :: tokens rest
      | ',' => .comma :: tokens rest
      | ':' => .colon :: tokens rest
      | 'n' =>
        match _h : scanWord ['u', 'l', 'l'] rest with
        | .ok after => .null :: tokens after
        | .error stop => [.brokenWord stop]
      | 't' =>
        match _h : scanWord ['r', 'u', 'e'] rest with
        | .ok after => .bool true :: tokens after
        | .error stop => [.brokenWord stop]
      | 'f' =>
        match _h : scanWord ['a', 'l', 's', 'e'] rest with
        | .ok after => .bool false :: tokens after
        | .error stop => [.brokenWord stop]
      | '"' =>
        match _h : (scanQuoted rest).rest with
        | .ok after =>
          .string ((join? (scanQuoted rest).units).map String.ofList) :: tokens after
        | .error failure => [.brokenString (stopInString (scanQuoted rest).units failure)]
      | _ =>
        if c = '-' || c.isDigit then
          match _h : scanNumber (c :: rest) with
          | .ok (literal, after) => .number (String.ofList literal) :: tokens after
          | .error stop => [.brokenWord stop]
        else [.brokenWord .malformed]
termination_by text => text.length
decreasing_by
  all_goals simp only [List.length_cons]
  all_goals try omega
  · have := scanWord_length _h; omega
  · have := scanWord_length _h; omega
  · have := scanWord_length _h; omega
  · have := scanQuoted_length _h; omega
  · have ⟨happ, hne⟩ := scanNumber_append _h
    have hlen := congrArg List.length happ
    have hpos := List.length_pos_iff.mpr hne
    simp only [List.length_cons, List.length_append] at hlen
    omega

end Json

end FunctionalOptions
