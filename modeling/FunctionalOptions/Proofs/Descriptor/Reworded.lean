import FunctionalOptions.Descriptor.Json.Shape

/-!
# Trees That Say the Same

What a tree of JSON says in a document does not depend on how it is put. The members of an object
may come in another order. A structure may have more members than are defined for it, as long as
they are plain. A member that holds its default can be left out, and an optional one that is
absent can be written as `null`.

What counts as a member of no meaning, or as a default, depends on what the value is read as, which
is its role. The role is that of a document at the root, and every member and item gets its own
from the one around it. A shape defines the members of its kind, which is itself a member, so the
roles below a shape are found from the kind wherever it comes.

Everything is put into other words one change at a time, and a change of one value is a change of
all that is around it.

## Main definitions

* `Role`: What a value is read as.
* `Place`: A member that is defined for a structure, and how it can be absent.
* `Role.places`: The members that are defined for a structure.
* `Reworded`: A tree of a role is put into other words in one place.
-/

namespace FunctionalOptions

namespace Descriptor

/-! ## Roles -/

/-- What a value is read as. -/
inductive Role where
  | document
  | package
  | record
  | field
  | param
  | shape
  | list (items : Role)
  /-- Texts, numbers, truth values and directions, and what nobody reads. -/
  | other
deriving DecidableEq, Repr

/-- How a member can be absent. -/
inductive Absence where
  | never
  /-- It is optional, and absent is the same as `null`. -/
  | null
  /-- The default is the empty list. -/
  | noItems
  /-- The default is `false`. -/
  | no
  /-- The default is the two-way direction. -/
  | both
deriving DecidableEq, Repr

/-- The value is what an absent member stands for. -/
def Absence.Holds : Absence → Json → Prop
  | .never, _ => False
  | .null, value => value = .null
  | .noItems, value => value = .array [] none
  | .no, value => value = .bool false
  | .both, value => direction? value = some .both

/-- A member that is defined for a structure. -/
structure Place where
  name : String
  role : Role
  absence : Absence
deriving DecidableEq, Repr

/-- The members that are defined for the shapes of a kind, besides the kind. -/
def Kind.places : Kind → List Place
  | .basic => [⟨"name", .other, .never⟩]
  | .named => [⟨"package", .package, .null⟩, ⟨"name", .other, .never⟩]
  | .pointer => [⟨"elem", .shape, .never⟩]
  | .array => [⟨"len", .other, .never⟩, ⟨"elem", .shape, .never⟩]
  | .slice => [⟨"elem", .shape, .never⟩]
  | .chan => [⟨"dir", .other, .both⟩, ⟨"elem", .shape, .never⟩]
  | .map => [⟨"key", .shape, .never⟩, ⟨"value", .shape, .never⟩]
  | .func =>
    [⟨"params", .list .param, .noItems⟩, ⟨"results", .list .param, .noItems⟩,
      ⟨"variadic", .other, .no⟩]
  | .interface => [⟨"methods", .list .other, .noItems⟩]
  | .struct => [⟨"fields", .list .other, .noItems⟩]
  | .typeParam => [⟨"name", .other, .never⟩]
  | .unsafePointer => []

theorem Kind.map_name_places (kind : Kind) : kind.places.map Place.name = kind.fieldNames := by
  cases kind <;> rfl

/-- The kind that contents name. -/
def kindOf? : Contents → Option Kind
  | .members entries =>
    match unique? "kind" entries with
    | some (some value) => kind? value
    | _ => none
  | .items [] => none
  | .items (first :: _) => kind? first

/-- The members that are defined for a structure with the contents, in the order of an
    array that stands for it. -/
def Role.places (contents : Contents) : Role → List Place
  | .document => [⟨"package", .package, .never⟩, ⟨"records", .list .record, .noItems⟩]
  | .package => [⟨"path", .other, .never⟩, ⟨"name", .other, .null⟩]
  | .record => [⟨"name", .other, .never⟩, ⟨"fields", .list .field, .noItems⟩]
  | .field => [⟨"name", .other, .never⟩, ⟨"type", .shape, .never⟩, ⟨"tag", .other, .null⟩]
  | .param => [⟨"name", .other, .null⟩, ⟨"type", .shape, .never⟩]
  | .shape => ⟨"kind", .other, .never⟩ :: ((kindOf? contents).map Kind.places).getD []
  | .list _ => []
  | .other => []

/-- The role is that of a structure. -/
def Role.isStructure : Role → Bool
  | .list _ => false
  | .other => false
  | _ => true

/-- The role of the value of a member. -/
def Role.ofMember (role : Role) (members : List (Option String × Json))
    (name : Option String) : Role :=
  (((role.places (.members members)).find? (some ·.name == name)).map Place.role).getD .other

/-- The role of an item of an array, given its position. -/
def Role.ofItem (role : Role) (items : List Json) (index : Nat) : Role :=
  match role with
  | .list items => items
  | role => ((role.places (.items items))[index]?.map Place.role).getD .other

/-! ## Rewording -/

/-- A string, a truth value or `null`. -/
inductive Plain : Json → Prop where
  | text (text : String) : Plain (.string (some text))
  | bool (value : Bool) : Plain (.bool value)
  | null : Plain .null

/-- A tree of the role is put into other words in one place. -/
inductive Reworded : Role → Json → Json → Prop where
  /-- The members of an object come in another order. -/
  | permute {role : Role} {members others : List (Option String × Json)} :
    members.Perm others → Reworded role (.object members none) (.object others none)
  /-- A structure has one more member, of a name that means nothing there. -/
  | insert {role : Role} {members : List (Option String × Json)} {name : String} {value : Json} :
    role.isStructure → name ∉ (role.places (.members members)).map Place.name → Plain value →
    Reworded role (.object members none) (.object ((some name, value) :: members) none)
  /-- A member that holds its default is left out. -/
  | drop {role : Role} {members : List (Option String × Json)} {place : Place} {value : Json} :
    place ∈ role.places (.members ((some place.name, value) :: members)) →
    place.absence.Holds value →
    Reworded role (.object ((some place.name, value) :: members) none) (.object members none)
  /-- An optional member that is absent is written as `null`. -/
  | null {role : Role} {members : List (Option String × Json)} {place : Place} :
    place ∈ role.places (.members members) → place.absence = .null →
    (∀ member ∈ members, member.1 ≠ some place.name) →
    Reworded role (.object members none) (.object ((some place.name, .null) :: members) none)
  /-- The value of a member is put into other words. -/
  | member {role : Role} {members : List (Option String × Json)} {name : Option String}
    {value other : Json} :
    Reworded (role.ofMember ((name, value) :: members) name) value other →
    Reworded role (.object ((name, value) :: members) none)
      (.object ((name, other) :: members) none)
  /-- An item of an array is put into other words. -/
  | item {role : Role} {before after : List Json} {item other : Json} :
    Reworded (role.ofItem (before ++ item :: after) before.length) item other →
    Reworded role (.array (before ++ item :: after) none) (.array (before ++ other :: after) none)

end Descriptor

end FunctionalOptions
