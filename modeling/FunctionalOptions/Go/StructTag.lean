import FunctionalOptions.Json.Quoted
import FunctionalOptions.Log
import FunctionalOptions.Text.Split
import FunctionalOptions.Unicode.WhiteSpace

/-!
# Struct Tags

A field may carry a tag, a text of `key:"value"` pairs separated by spaces. One
key belongs to the generator; its value is a list of options separated by
commas.

A value ends at the first quote that no backslash protects, and it is sought
among the bytes of the text: a backslash protects the byte after it, which may
be one of several that make up a character. That the quote found this way never
lies inside a character is due to UTF-8, whose multi-byte characters contain no
byte that is also an ASCII character. The cut at the quote is nevertheless one
that checks, so nothing about the encoding has to be known to see that no
character is ever split.

The scan gives up at the first thing that is not a pair. Keys behind it do not
exist, however well-formed they are.

## Main definitions

* `StructTag.closingQuote`: Where a quoted value ends, in bytes.
* `StructTag.cut`: A text cut at a number of bytes, between two characters.
* `StructTag.lookup`: The value of a key.
* `StructTag.ignores`: The tag tells the generator to pass over the field.

## Theorems

* `StructTag.cut_append`: The two parts of a cut make up the text.
-/

namespace FunctionalOptions

namespace Go

namespace StructTag

/-- The key whose value is meant for the generator. -/
def key : String := "gooptions"

/-- The character can be part of a key: it is printable and none of the marks
    that end one. -/
def isKeyChar (c : Char) : Bool :=
  !(c.toNat ≤ 0x20 || c = ':' || c = '"' || c.toNat = 0x7F)

/-- The bytes of a text. -/
def bytes (text : List Char) : List UInt8 :=
  text.flatMap String.utf8EncodeChar

/-- The number of bytes before the quote that ends a value. A backslash
    protects the byte after it. -/
def closingQuote : List UInt8 → Option Nat
  | [] => none
  | b :: rest =>
    if b = 0x22 then some 0
    else if b = 0x5C then
      match rest with
      | [] => none
      | _ :: rest => (closingQuote rest).map (· + 2)
    else (closingQuote rest).map (· + 1)

/-- A text cut after a number of bytes, unless that is inside a character or
    behind the end. -/
def cut : Nat → List Char → Option (List Char × List Char)
  | 0, text => some ([], text)
  | _ + 1, [] => none
  | n + 1, c :: text =>
    if c.utf8Size ≤ n + 1 then
      (cut (n + 1 - c.utf8Size) text).map fun (before, after) => (c :: before, after)
    else none

/-- The two parts of a cut make up the text. -/
theorem cut_append {n : Nat} {text before after : List Char}
    (h : cut n text = some (before, after)) : text = before ++ after := by
  fun_induction cut n text generalizing before after with
  | case1 text =>
    simp only [Option.some.injEq, Prod.mk.injEq] at h
    obtain ⟨rfl, rfl⟩ := h
    rfl
  | case2 => simp at h
  | case3 n c text _ ih =>
    simp only [Option.map_eq_some_iff, Prod.mk.injEq, Prod.exists] at h
    obtain ⟨b, a, hc, rfl, rfl⟩ := h
    rw [ih hc, List.cons_append]
  | case4 => simp at h

/-- The value of a key: that of its first pair, decoded. There is none when the
    tag stops being a list of pairs before the key comes up, or when the value
    is no string literal. -/
def lookup (key : List Char) (tag : List Char) : Option String :=
  match _hrest : (tag.dropWhile (· = ' ')).dropWhile isKeyChar with
  | ':' :: '"' :: body =>
    let name := (tag.dropWhile (· = ' ')).takeWhile isKeyChar
    if name.isEmpty then none
    else match closingQuote (bytes body) with
      | none => none
      | some n =>
        match _hcut : cut (n + 1) body with
        | none => none
        | some (value, rest) =>
          if name = key then (Json.readQuoted? ('"' :: value)).map String.ofList
          else lookup key rest
  | _ => none
termination_by tag.length
decreasing_by
  have happ := congrArg List.length (cut_append _hcut)
  have hlen := congrArg List.length _hrest
  have hkey := (List.dropWhile_sublist (l := tag.dropWhile (· = ' ')) isKeyChar).length_le
  have hblank := (List.dropWhile_sublist (l := tag) (· = ' ')).length_le
  simp only [List.length_cons, List.length_append] at happ hlen
  omega

/-- The options a value lists: its pieces without surrounding blanks, empty
    ones left out. -/
def optionsOf (value : String) : List String :=
  ((Text.splitAt ',' value.toList).map Unicode.trim).filter (!·.isEmpty) |>.map String.ofList

/-- The option is one of the two that make the generator pass over a field. -/
def isIgnoring (option : String) : Bool :=
  option = "-" || option = "ignore"

/-- The tag tells the generator to pass over its field. -/
def ignores (tag : String) : Bool :=
  match lookup key.toList tag.toList with
  | none => false
  | some value => (optionsOf value).any isIgnoring

/-- What is said about an option that means nothing. -/
def unknownOption (option : String) : Event :=
  ⟨.debug, "ignoring unknown " ++ key ++ " tag option '" ++ option ++ "'"⟩

/-- Reading the options of a tag, which reports those that mean nothing. -/
def read {ε : Type} (tag : String) : Logged ε Bool :=
  let options := match lookup key.toList tag.toList with
    | none => []
    | some value => optionsOf value
  ⟨(options.filter (!isIgnoring ·)).map unknownOption, .ok (ignores tag)⟩

end StructTag

end Go

end FunctionalOptions
