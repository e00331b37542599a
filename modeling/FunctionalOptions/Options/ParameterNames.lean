import FunctionalOptions.Go.Identifier

/-!
# Parameter Names

The parameter of an option function is named after the field, with the first
character lowered. That name may be a keyword, one of the two alias types,
which it would hide, or a name that the function needs for something else. Such
a name gets a number appended.

The numbers come from one counter and are never used twice, so that a file
generated again has the same names. A number is appended without a second look:
the name it makes is not checked in its turn.

## Main definitions

* `ParameterNames`: The names in use and the next number.
* `ParameterNames.collides`: The name cannot be used.
* `ParameterNames.sanitize`: The name, made usable.
* `ParameterNames.forField`: The parameter name for a field.
-/

namespace FunctionalOptions

/-- The names that a run keeps for itself, and the number that the next
    collision gets. The number has no bound. A run has one collision for each field
    at most, so that a machine word would hold it, too. -/
structure ParameterNames where
  reserved : List String
  counter : Nat
deriving DecidableEq, Repr

namespace ParameterNames

/-- Nothing reserved and no collision yet. -/
def fresh : ParameterNames := ⟨[], 0⟩

/-- Keep a name for something else. -/
def reserve (names : ParameterNames) (name : String) : ParameterNames :=
  { names with reserved := name :: names.reserved }

/-- The alias types, which a parameter of the same name would hide. -/
def aliasTypes : List String := ["byte", "rune"]

/-- The name cannot be used as it is. -/
def collides (names : ParameterNames) (name : String) : Bool :=
  Go.isKeyword name || aliasTypes.contains name || names.reserved.contains name

/-- The name, with the next number appended when it collides. -/
def sanitize (names : ParameterNames) (name : String) : String × ParameterNames :=
  if names.collides name then
    (name ++ toString names.counter, { names with counter := names.counter + 1 })
  else (name, names)

/-- The parameter name for a field. -/
def forField (names : ParameterNames) (field : String) : String × ParameterNames :=
  names.sanitize (Go.lowerFirst field)

end ParameterNames

end FunctionalOptions
