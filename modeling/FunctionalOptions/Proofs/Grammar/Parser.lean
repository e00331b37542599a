import FunctionalOptions.Proofs.Grammar.Token
import FunctionalOptions.Proofs.Types.Written

/-!
# The Grammar of Types

A parser for the types that the language has, over the tokens of a text. It
decides the places at which the grammar alone leaves a choice in the way the
language does: an arrow belongs to the leftmost `chan` it can, the results of a
function belong to the innermost one, and a parenthesis behind parameters opens
a list of results and not a type.

A list of parameters is the difficult production. Its entries are a type or a
name with a type, and an entry that is a bare name may be either. The language
settles this for the whole list. When some entry has both a name and a type,
every bare entry is a name and shares the type of the next entry that has one;
otherwise all entries are types.

The parser reads more than the printer writes, such as types in parentheses and
lists that end in a comma. Nesting is bounded by a number, for which the length
of the text will do, since every level takes a character.

## Main definitions

* `parseType`: The type at the head of a list of tokens, and what follows it.
* `parseParams`, `parseResults`: The parameters and results of a function.
* `WrittenType.ofText?`: The type that a whole text is.
-/

namespace FunctionalOptions

namespace Go

/-- A reader of types: the type at the head of a list of tokens, and what
    follows it. -/
abbrev TypeReader := List Token → Option (WrittenType × List Token)

/-- A type can begin here. -/
def startsType : List Token → Bool
  | .name _ :: _ | .star :: _ | .openBracket :: _ | .openParen :: _ | .chan :: _ | .arrow :: _
  | .map :: _ | .func :: _ | .interface :: _ | .struct :: _ => true
  | _ => false

/-- What follows a token that has to come next. -/
def expect (token : Token) : List Token → Option (List Token)
  | [] => none
  | next :: rest => if next = token then some rest else none

/-- A name that has been read, with the name it qualifies if a point follows. -/
def parseName (first : String) : TypeReader
  | .dot :: .name second :: rest => some (.named (some first) second, rest)
  | .dot :: _ => none
  | rest => some (.named none first, rest)

/-- The direction of a channel whose keyword has been read. An arrow that
    follows at once belongs to the keyword. -/
def parseDirection : List Token → Direction × List Token
  | .arrow :: rest => (.send, rest)
  | rest => (.both, rest)

/-- The variadic mark, if one comes next. -/
def parseMark : List Token → Bool × List Token
  | .ellipsis :: rest => (true, rest)
  | rest => (false, rest)

/-- An entry of a parameter list that has no name: a type that may be marked. -/
def parseUnnamed (read : TypeReader) (tokens : List Token) :
    Option (Param WrittenType × List Token) := do
  let (type, rest) ← read (parseMark tokens).2
  return (⟨none, type, (parseMark tokens).1⟩, rest)

/-- An entry of a parameter list. A name is that of a parameter when a type
    follows it, and a type otherwise. -/
def parseEntry (read : TypeReader) (tokens : List Token) :
    Option (Param WrittenType × List Token) :=
  match tokens with
  | .name name :: rest =>
    if startsType (parseMark rest).2 then do
      let (p, rest) ← parseUnnamed read rest
      return (⟨some name, p.type, p.variadic⟩, rest)
    else parseUnnamed read tokens
  | _ => parseUnnamed read tokens

/-- The entries of a parameter list whose opening parenthesis has been read, as
    many as the bound allows. A comma may follow the last of them. -/
def parseEntries (read : TypeReader) :
    Nat → List Token → Option (List (Param WrittenType) × List Token)
  | 0, _ => none
  | bound + 1, tokens =>
    if tokens.head? = some .closeParen then some ([], tokens.tail)
    else do
      let (p, rest) ← parseEntry read tokens
      match rest with
      | .closeParen :: rest => return ([p], rest)
      | .comma :: rest => do
        let (ps, rest) ← parseEntries read bound rest
        return (p :: ps, rest)
      | _ => none

/-- The parameters of a list in which some entry has both a name and a type: a
    bare name shares the type of the next entry. -/
def shareTypes : List (Param WrittenType) → Option (List (Param WrittenType))
  | [] => some []
  | ⟨some name, type, variadic⟩ :: rest => do
    let ps ← shareTypes rest
    return ⟨some name, type, variadic⟩ :: ps
  | ⟨none, type, variadic⟩ :: rest => do
    let ps ← shareTypes rest
    match type, variadic, ps with
    | .named none name, false, next :: _ =>
      if isIdentifier name then some (⟨some name, next.type, next.variadic⟩ :: ps) else none
    | _, _, _ => none

/-- The parameters that the entries of a list stand for. -/
def resolveEntries (entries : List (Param WrittenType)) : Option (List (Param WrittenType)) :=
  if entries.all (·.name.isNone) then some entries else shareTypes entries

/-- The parameters of a list whose opening parenthesis has been read. -/
def parseParams (read : TypeReader) (bound : Nat) (tokens : List Token) :
    Option (List (Param WrittenType) × List Token) := do
  let (entries, rest) ← parseEntries read bound tokens
  let params ← resolveEntries entries
  return (params, rest)

/-- The results of a function type: none, a single type, or a list. -/
def parseResults (read : TypeReader) (bound : Nat) (tokens : List Token) :
    Option (List (Param WrittenType) × List Token) :=
  if tokens.head? = some .openParen then parseParams read bound tokens.tail
  else if startsType tokens then do
    let (type, rest) ← read tokens
    return ([⟨none, type, false⟩], rest)
  else some ([], tokens)

/-- The type at the head of a list of tokens, nested no deeper than the bound
    allows. -/
def parseType : Nat → TypeReader
  | 0, _ => none
  | bound + 1, tokens =>
    match tokens with
    | .name first :: rest => parseName first rest
    | .interface :: .openBrace :: .closeBrace :: rest =>
      some (.named none "interface\x7b\x7d", rest)
    | .struct :: .openBrace :: .closeBrace :: rest => some (.named none "struct\x7b\x7d", rest)
    | .openParen :: rest => do
      let (type, rest) ← parseType bound rest
      let rest ← expect .closeParen rest
      return (type, rest)
    | .star :: rest => do
      let (elem, rest) ← parseType bound rest
      return (.pointer elem, rest)
    | .openBracket :: .closeBracket :: rest => do
      let (elem, rest) ← parseType bound rest
      return (.slice elem, rest)
    | .openBracket :: .number len :: .closeBracket :: rest => do
      let (elem, rest) ← parseType bound rest
      return (.array len elem, rest)
    | .arrow :: .chan :: rest => do
      let (elem, rest) ← parseType bound rest
      return (.channel .recv elem, rest)
    | .chan :: rest => do
      let (elem, rest') ← parseType bound (parseDirection rest).2
      return (.channel (parseDirection rest).1 elem, rest')
    | .map :: .openBracket :: rest => do
      let (key, rest) ← parseType bound rest
      let rest ← expect .closeBracket rest
      let (value, rest) ← parseType bound rest
      return (.map key value, rest)
    | .func :: .openParen :: rest => do
      let (inputs, rest) ← parseParams (parseType bound) bound rest
      let (outputs, rest) ← parseResults (parseType bound) bound rest
      return (.func inputs outputs, rest)
    | _ => none

/-- The type that a whole text is. -/
def WrittenType.ofText? (text : String) : Option WrittenType :=
  match parseType (text.length + 1) (tokens text.toList) with
  | some (type, []) => some type
  | _ => none

end Go

end FunctionalOptions
