import FunctionalOptions.Go.AliasTable
import FunctionalOptions.Go.TypeExpr

/-!
# The Text of a Type

A type is printed the way Go source writes it, with every name qualified by the
alias of its package. The text is meant to be read back as the same type, which
asks for care at one place: the arrow of a receiving channel binds to the
leftmost `chan` it can, so a two-way channel of receiving channels has to put
its element in parentheses.

A function type can be printed when only its last parameter is variadic and no
result is. The rule is checked before anything of the type is printed, so the
misplaced mark of an outer type is reported before that of an inner one.

A package that has no alias is not an error. Its names are printed bare, and
the fact is reported.

## Main definitions

* `RenderError`: Where a variadic mark is misplaced.
* `TypeExpr.render`: The text of a type.
-/

namespace FunctionalOptions

namespace Go

/-- A variadic mark in a place where the language has none. Positions count
    from zero. -/
inductive RenderError where
  /-- The mark is on a parameter before the last of `count`. -/
  | variadicNotLast (position count : Nat)
  /-- The mark is on a result. -/
  | variadicResult (position : Nat)
deriving DecidableEq, Repr

namespace RenderError

/-- The error in words. -/
def message : RenderError → String
  | variadicNotLast position count =>
    "variadic parameter at position " ++ toString position ++ " of " ++ toString count ++
      " is not last"
  | variadicResult position => "variadic result parameter at position " ++ toString position

end RenderError

/-- The first misplaced variadic mark of a function type, parameters before
    results. -/
def misplacedVariadic? (inputs outputs : List (Param TypeExpr)) : Option RenderError :=
  match inputs.dropLast.findIdx? (·.variadic) with
  | some position => some (.variadicNotLast position inputs.length)
  | none => (outputs.findIdx? (·.variadic)).map .variadicResult

/-- What is said about a name whose package has no alias. -/
def noAlias (path name : String) : Event :=
  ⟨.debug, "no alias for package '" ++ path ++ "', rendering '" ++ name ++ "' bare"⟩

/-- A name qualified by the alias of its package, or bare when it has none. -/
def qualify (aliases : AliasTable) (package : Option Package) (name : String) :
    Logged RenderError String :=
  match package with
  | none => pure name
  | some package =>
    match aliases.get? package.path with
    | none => ⟨[noAlias package.path name], .ok name⟩
    | some localName => pure (if localName = "" then name else localName ++ "." ++ name)

/-- What comes before the element of a channel. -/
def channelMark : Direction → String
  | .recv => "<-chan "
  | .send => "chan<- "
  | .both => "chan "

/-- The element of a channel needs parentheses: it begins with an arrow that
    the `chan` in front of it would take for its own. -/
def needsParens (dir : Direction) (elem : TypeExpr) : Bool :=
  match dir, elem with
  | .both, .channel .recv _ => true
  | _, _ => false

/-- A parameter, given the text of its type. -/
def paramText {τ : Type} (p : Param τ) (type : String) : String :=
  (match p.name with
    | none => ""
    | some name => name ++ " ") ++ (if p.variadic then "..." else "") ++ type

/-- The results of a function type, given the texts of its parameters. One
    result without a name stands alone, any others in parentheses. -/
def resultsText {τ : Type} (outputs : List (Param τ)) (texts : List String) : String :=
  match outputs with
  | [] => ""
  | [⟨none, _, _⟩] => " " ++ ", ".intercalate texts
  | _ => " (" ++ ", ".intercalate texts ++ ")"

namespace TypeExpr

mutual

/-- The text of a type. -/
def render (aliases : AliasTable) : TypeExpr → Logged RenderError String
  | .predeclared name => pure name
  | .named package name => qualify aliases package name
  | .pointer elem => do
    let elem ← elem.render aliases
    return "*" ++ elem
  | .slice elem => do
    let elem ← elem.render aliases
    return "[]" ++ elem
  | .array len elem => do
    let elem ← elem.render aliases
    return "[" ++ toString len.toNat ++ "]" ++ elem
  | .channel dir elem => do
    let text ← elem.render aliases
    return channelMark dir ++ if needsParens dir elem then "(" ++ text ++ ")" else text
  | .map key value => do
    let key ← key.render aliases
    let value ← value.render aliases
    return "map[" ++ key ++ "]" ++ value
  | .func inputs outputs =>
    match misplacedVariadic? inputs outputs with
    | some error => .fail error
    | none => do
      let inputTexts ← renderParams aliases inputs
      let outputTexts ← renderParams aliases outputs
      return "func(" ++ ", ".intercalate inputTexts ++ ")" ++ resultsText outputs outputTexts

/-- The texts of parameters, in order. -/
def renderParams (aliases : AliasTable) :
    List (Param TypeExpr) → Logged RenderError (List String)
  | [] => pure []
  | p :: ps => do
    let text ← renderParam aliases p
    let texts ← renderParams aliases ps
    return text :: texts

/-- The text of a parameter. -/
def renderParam (aliases : AliasTable) : Param TypeExpr → Logged RenderError String
  | ⟨name, type, variadic⟩ => do
    let text ← type.render aliases
    return paramText ⟨name, type, variadic⟩ text

end

end TypeExpr

end Go

end FunctionalOptions
