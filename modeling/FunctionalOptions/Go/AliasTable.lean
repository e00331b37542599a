import FunctionalOptions.Go.Package
import FunctionalOptions.Log

/-!
# Alias Tables

The name each package goes by in one source file. The package that the file
itself belongs to gets the empty alias, since its names are written without a
qualifier and it is never imported.

A table is kept in ascending order of paths with one entry a path, and the
order is part of the type. Two tables with the same entries are then equal,
however they came about, and the import block can be printed by going down the
list.

Two packages may end up with the same alias. The table reports such collisions
and leaves them as they are.

## Main definitions

* `AliasTable`: Paths with their aliases, ascending.
* `AliasTable.insert`: Set the alias of a path.
* `AliasTable.get?`: The alias of a path.
* `AliasTable.imports`, `AliasTable.importsFor`: The lines of an import block.
* `AliasTable.collisions`: The aliases that several paths share.
* `AliasTable.ofPackages`, `AliasTable.resolve`: The table of a list of
  packages, without and with its report.

## Theorems

* `ascending_insertEntry`: Setting an alias keeps the order.
* `AliasTable.get?_insert`: Setting an alias changes the one at its path only.
-/

namespace FunctionalOptions

namespace Go

/-- Set the alias of a path in an ascending list of entries. -/
def insertEntry (path localName : String) : List (String × String) → List (String × String)
  | [] => [(path, localName)]
  | entry :: rest =>
    if path < entry.1 then (path, localName) :: entry :: rest
    else if path = entry.1 then (path, localName) :: rest
    else entry :: insertEntry path localName rest

/-- An entry of the changed list is the new one or was there before. -/
theorem mem_insertEntry {path localName : String} {entries : List (String × String)}
    {entry : String × String} (h : entry ∈ insertEntry path localName entries) :
    entry = (path, localName) ∨ entry ∈ entries := by
  fun_induction insertEntry path localName entries with
  | case1 => exact Or.inl (by simpa using h)
  | case2 => simpa using h
  | case3 =>
    rcases List.mem_cons.mp h with h | h
    · exact Or.inl h
    · exact Or.inr (List.mem_cons_of_mem _ h)
  | case4 e rest _ _ ih =>
    rcases List.mem_cons.mp h with h | h
    · exact Or.inr (h ▸ List.mem_cons_self)
    · rcases ih h with h | h
      · exact Or.inl h
      · exact Or.inr (List.mem_cons_of_mem _ h)

/-- What a list of entries has at each path once an alias is set. -/
theorem lookup_insertEntry (path localName other : String) (entries : List (String × String)) :
    (insertEntry path localName entries).lookup other =
      if other = path then some localName else entries.lookup other := by
  fun_induction insertEntry path localName entries with
  | case1 | case2 =>
    by_cases h : other = path
    · simp only [List.lookup_cons, h, beq_self_eq_true, if_true]
    · simp only [List.lookup_cons, beq_eq_false_iff_ne.mpr h, if_neg h]
  | case3 entry rest _ heq =>
    rcases entry with ⟨key, value⟩
    by_cases h : other = path
    · simp only [List.lookup_cons, h, beq_self_eq_true, if_true]
    · have hkey : (other == key) = false := beq_eq_false_iff_ne.mpr fun hk => h (hk.trans heq.symm)
      simp only [List.lookup_cons, beq_eq_false_iff_ne.mpr h, if_neg h, hkey]
  | case4 entry rest _ hne ih =>
    rcases entry with ⟨key, value⟩
    by_cases h : other = key
    · have hpath : ¬key = path := fun heq => hne heq.symm
      simp only [List.lookup_cons, h, beq_self_eq_true, if_neg hpath]
    · simp only [List.lookup_cons, beq_eq_false_iff_ne.mpr h, ih]

/-- A list of entries in ascending order of paths, one entry a path. -/
abbrev Ascending (entries : List (String × String)) : Prop :=
  entries.Pairwise fun a b => a.1 < b.1

/-- Setting an alias keeps the order. -/
theorem ascending_insertEntry (path localName : String) {entries : List (String × String)}
    (h : Ascending entries) : Ascending (insertEntry path localName entries) := by
  fun_induction insertEntry path localName entries with
  | case1 => exact List.pairwise_singleton _ _
  | case2 e rest hlt =>
    refine List.pairwise_cons.mpr ⟨fun b hb => ?_, h⟩
    rcases List.mem_cons.mp hb with rfl | hb
    · exact hlt
    · exact String.lt_trans hlt ((List.pairwise_cons.mp h).1 b hb)
  | case3 e rest _ heq =>
    have hcons := List.pairwise_cons.mp h
    exact List.pairwise_cons.mpr ⟨fun b hb => heq ▸ hcons.1 b hb, hcons.2⟩
  | case4 e rest hlt hne ih =>
    have hcons := List.pairwise_cons.mp h
    refine List.pairwise_cons.mpr ⟨fun b hb => ?_, ih hcons.2⟩
    rcases mem_insertEntry hb with rfl | hb
    · -- Neither below nor equal, so the new path stands above this one.
      exact Decidable.byContradiction fun hnot =>
        hne (String.le_antisymm (String.not_lt.mp hnot) (String.not_lt.mp hlt))
    · exact hcons.1 b hb

/-- The aliases of packages by their paths. -/
structure AliasTable where
  entries : List (String × String)
  ascending : Ascending entries
deriving DecidableEq

/-- A line of an import block. -/
structure Import where
  path : String
  localName : String
deriving DecidableEq, Repr

/-- The line has to spell out the alias, which the path does not show. -/
def Import.isNamed (line : Import) : Bool :=
  line.localName != lastSegment line.path

namespace AliasTable

/-- The table without entries. -/
def empty : AliasTable := ⟨[], List.Pairwise.nil⟩

/-- Set the alias of a path. -/
def insert (table : AliasTable) (path localName : String) : AliasTable :=
  ⟨insertEntry path localName table.entries, ascending_insertEntry path localName table.ascending⟩

/-- The alias of a path. -/
def get? (table : AliasTable) (path : String) : Option String :=
  table.entries.lookup path

/-- What a table has at each path once an alias is set. -/
theorem get?_insert (table : AliasTable) (path localName other : String) :
    (table.insert path localName).get? other =
      if other = path then some localName else table.get? other :=
  lookup_insertEntry path localName other table.entries

/-- The packages that need an import, ascending by path. -/
def imports (table : AliasTable) : List Import :=
  (table.entries.filter (·.2 != "")).map fun (path, localName) => ⟨path, localName⟩

/-- The imports that a list of packages needs, ascending by path. A package
    without an entry has no import. -/
def importsFor (table : AliasTable) (packages : List Package) : List Import :=
  table.imports.filter fun line => packages.any (·.path == line.path)

/-- Put a text into an ascending list of texts, unless it is there. -/
def insertText (text : String) : List String → List String
  | [] => [text]
  | other :: rest =>
    if text < other then text :: other :: rest
    else if text = other then other :: rest
    else other :: insertText text rest

/-- The aliases of a table, ascending and each one once. -/
def aliases (table : AliasTable) : List String :=
  table.imports.foldr (fun line => insertText line.localName) []

/-- The paths that go by an alias, ascending. -/
def pathsOf (table : AliasTable) (localName : String) : List String :=
  (table.imports.filter (·.localName == localName)).map (·.path)

/-- The aliases that several paths share, ascending, with their paths. -/
def collisions (table : AliasTable) : List (String × List String) :=
  (table.aliases.map fun localName => (localName, table.pathsOf localName)).filter (·.2.length > 1)

/-- The alias of a package in a file of another: its short name, or nothing
    when the file belongs to the package itself. -/
def aliasIn (origin package : Package) : String :=
  if package.same origin then "" else package.name

/-- The table of a list of packages. -/
def ofPackages (origin : Package) (packages : List Package) : AliasTable :=
  packages.foldl (fun table p => table.insert p.path (aliasIn origin p)) empty

/-- What is said when an alias is set. -/
def aliasSet (path localName : String) : Event :=
  ⟨.debug, "alias '" ++ path ++ "' -> '" ++ localName ++ "'"⟩

/-- What is said about an alias that several paths share. -/
def aliasShared (localName : String) (paths : List String) : Event :=
  ⟨.warn, "packages " ++ ", ".intercalate paths ++ " share the name '" ++ localName ++
    "'; generated imports will collide"⟩

/-- The table of a list of packages, reporting every alias as it is set and
    every collision at the end. -/
def resolve {ε : Type} (origin : Package) (packages : List Package) : Logged ε AliasTable :=
  let table := ofPackages origin packages
  ⟨packages.map (fun p => aliasSet p.path (aliasIn origin p)) ++
    table.collisions.map (fun (localName, paths) => aliasShared localName paths), .ok table⟩

/-- Set the alias of a path, reporting it. -/
def assign {ε : Type} (table : AliasTable) (path localName : String) : Logged ε AliasTable :=
  ⟨[aliasSet path localName], .ok (table.insert path localName)⟩

end AliasTable

end Go

end FunctionalOptions
