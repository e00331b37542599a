import FunctionalOptions.Proofs.Imports.Collisions
import Mathlib.Data.List.Induction

/-!
# The Views of an Alias Table

A table is looked at in many ways: for the alias of one path, entry by entry, for
the lines of an import block, all of them or those that some packages need, and
for its collisions. Each view is worked out from the entries in a way of its own,
and the last one regroups them by alias. They are nevertheless views of one thing,
the finite map that gives a path the alias last written for it, and this is said
here for a table that has been built and changed in any way.

What has been written is told by the changes alone, without a table. Building a
table forgets everything before it and then writes an alias for one package after
the other; setting an alias is one more write. With the latest write in front, the
alias of a path is the first one found for it.

The run does not make the views agree. Whatever a table went through, its entries
ascend, and each view can be told from what the table gives at each path. So the
run has to be followed for that one view only.

## Main definitions

* `AliasTable.Change`, `AliasTable.run`: What is done to a table, and the table
  that comes of it.
* `AliasTable.lastWritten?`: The alias last written for a path.
* `AliasTable.Shows`: All views of a table show one map.

## Theorems

* `AliasTable.mem_collisions_iff`: A collision is an alias with all of its paths,
  which are two at least.
* `AliasTable.shows_get?`: The views of a table show what it gives at each path.
* `AliasTable.get?_afterAll`: A table gives what was last written.
* `AliasTable.run_shows`: After any changes, the views show what was last written.
-/

namespace FunctionalOptions

namespace Go

namespace AliasTable

/-! ## Regrouping by alias -/

/-- Putting a text into an ascending list keeps the order. -/
theorem ascending_insertText (text : String) {texts : List String}
    (h : texts.Pairwise (· < ·)) : (insertText text texts).Pairwise (· < ·) := by
  fun_induction insertText text texts with
  | case1 => exact List.pairwise_singleton _ _
  | case2 first rest hlt =>
      refine List.pairwise_cons.mpr ⟨fun other hother => ?_, h⟩
      -- The new text comes first, and stands below all that followed its successor.
      rcases List.mem_cons.mp hother with rfl | hother
      · exact hlt
      · exact String.lt_trans hlt ((List.pairwise_cons.mp h).1 other hother)
  | case3 first rest => exact h
  | case4 first rest hlt hne ih =>
      rcases List.pairwise_cons.mp h with ⟨hfirst, hrest⟩
      refine List.pairwise_cons.mpr ⟨fun other hother => ?_, ih hrest⟩
      rcases mem_insertText.mp hother with rfl | hother
      · -- Neither below nor equal, so the new text stands above this one.
        exact Decidable.byContradiction fun hnot =>
          hne (String.le_antisymm (String.not_lt.mp hnot) (String.not_lt.mp hlt))
      · exact hfirst other hother

/-- The aliases of a table ascend. -/
theorem ascending_aliases (table : AliasTable) : table.aliases.Pairwise (· < ·) := by
  unfold aliases
  induction table.imports with
  | nil => exact List.Pairwise.nil
  | cons line lines ih => exact ascending_insertText line.localName ih

/-- An alias with a path is an alias of the table. -/
theorem mem_aliases_of_mem_pathsOf {table : AliasTable} {localName path : String}
    (h : path ∈ table.pathsOf localName) : localName ∈ table.aliases := by
  rw [mem_aliases_iff]
  exact ⟨⟨path, localName⟩, (mem_imports_iff _ _).mpr ((mem_pathsOf_iff _ _ _).mp h), rfl⟩

/-- Collisions ascend by alias. -/
theorem collisions_ascending (table : AliasTable) :
    table.collisions.Pairwise fun a b => a.1 < b.1 := by
  have hpaths : (table.aliases.map fun localName => (localName, table.pathsOf localName)).Pairwise
      fun a b => a.1 < b.1 :=
    List.pairwise_map.mpr table.ascending_aliases
  exact hpaths.filter _

/-- A collision is an alias, not the empty one, with all the paths that go by it in
    ascending order, two of them at least. -/
theorem mem_collisions_iff (table : AliasTable) (localName : String) (paths : List String) :
    (localName, paths) ∈ table.collisions ↔ localName ≠ "" ∧ 2 ≤ paths.length ∧
      paths.Pairwise (· < ·) ∧ ∀ path, path ∈ paths ↔ table.get? path = some localName := by
  simp only [collisions, List.mem_filter, List.mem_map, Prod.mk.injEq, decide_eq_true_eq]
  constructor
  · rintro ⟨⟨_, halias, rfl, rfl⟩, hlength⟩
    rcases (mem_aliases_iff _ _).mp halias with ⟨line, hline, rfl⟩
    have hne := ((mem_imports_iff _ _).mp hline).2
    refine ⟨hne, hlength, table.ascending_pathsOf _, fun path => ?_⟩
    rw [mem_pathsOf_iff, and_iff_left hne]
  · rintro ⟨hne, hlength, hascending, hmem⟩
    -- An ascending list is known by its members, so these are the paths that are listed.
    obtain rfl : paths = table.pathsOf localName := by
      refine @eq_of_ascending _ id _ _ hascending (table.ascending_pathsOf localName) ?_
      intro path
      rw [hmem, mem_pathsOf_iff, and_iff_left hne]
    have hfirst : (table.pathsOf localName)[0] ∈ table.pathsOf localName :=
      List.getElem_mem (by omega)
    exact ⟨⟨localName, mem_aliases_of_mem_pathsOf hfirst, rfl, rfl⟩, hlength⟩

/-! ## One map behind all views -/

/-- All views of a table show the map that gives a path its alias. -/
structure Shows (table : AliasTable) (alias? : String → Option String) : Prop where
  /-- The alias of a path. -/
  get?_eq : ∀ path, table.get? path = alias? path
  /-- The entries, one for each path and in the order of the paths. -/
  entries_ascending : table.entries.Pairwise fun a b => a.1 < b.1
  mem_entries_iff : ∀ path localName,
    (path, localName) ∈ table.entries ↔ alias? path = some localName
  /-- The import lines, which are the entries whose alias is not empty. -/
  imports_eq : table.imports.map (fun line => (line.path, line.localName)) =
    table.entries.filter fun entry => entry.2 ≠ ""
  /-- The import lines for some packages: those whose path is the path of one of
      them, and none of them twice. -/
  importsFor_eq : ∀ packages, table.importsFor packages =
    table.imports.filter fun line => line.path ∈ packages.map Package.path
  importsFor_ascending : ∀ packages,
    (table.importsFor packages).Pairwise fun a b => a.path < b.path
  /-- The collisions in the order of the aliases, each with all of its paths in
      their order. -/
  collisions_ascending : table.collisions.Pairwise fun a b => a.1 < b.1
  mem_collisions_iff : ∀ localName paths, (localName, paths) ∈ table.collisions ↔
    localName ≠ "" ∧ 2 ≤ paths.length ∧ paths.Pairwise (· < ·) ∧
      ∀ path, path ∈ paths ↔ alias? path = some localName

/-- The views of a table show what it gives at each path. -/
theorem shows_get? (table : AliasTable) : table.Shows table.get? where
  get?_eq _ := rfl
  entries_ascending := table.ascending
  mem_entries_iff := table.mem_entries_iff
  imports_eq := by
    rw [imports, List.map_map]
    have hentry : ((fun line : Import => (line.path, line.localName)) ∘
        fun entry : String × String => ⟨entry.1, entry.2⟩) = id := rfl
    rw [hentry, List.map_id]
    exact List.filter_congr fun entry _ => by rw [Bool.eq_iff_iff, bne_iff_ne, decide_eq_true_eq]
  importsFor_eq packages := by
    refine List.filter_congr fun line _ => ?_
    rw [Bool.eq_iff_iff, List.any_eq_true, decide_eq_true_eq, List.mem_map]
    simp only [beq_iff_eq]
  importsFor_ascending := table.importsFor_ascending
  collisions_ascending := table.collisions_ascending
  mem_collisions_iff := table.mem_collisions_iff

/-! ## Runs -/

/-- What is done to a table: it is built anew, for the files of one package and
    from the packages that were found, or the alias of a path is set. -/
inductive Change where
  | build (origin : Package) (packages : List Package)
  | set (path localName : String)
deriving DecidableEq, Repr

section Runs

variable {ε : Type}

/-- The table after a change, with what is reported on the way. -/
def apply (table : AliasTable) : Change → Logged ε AliasTable
  | .build origin packages => resolve origin packages
  | .set path localName => table.assign path localName

/-- The table after changes, one after the other. -/
def run (table : AliasTable) : List Change → Logged ε AliasTable
  | [] => pure table
  | change :: rest => do
    let table ← table.apply change
    table.run rest

/-- The table after a change, reports aside. -/
def after (table : AliasTable) : Change → AliasTable
  | .build origin packages => ofPackages origin packages
  | .set path localName => table.insert path localName

/-- No change fails. -/
theorem result_run (table : AliasTable) (changes : List Change) :
    (table.run changes : Logged ε AliasTable).result = .ok (changes.foldl after table) := by
  induction changes generalizing table with
  | nil => rfl
  | cons change rest ih =>
      -- Both changes may report something, but neither can fail.
      have happly : (table.apply change : Logged ε AliasTable).result =
          .ok (table.after change) := by
        cases change <;> rfl
      rw [run, Logged.result_bind, happly, List.foldl_cons]
      exact ih (table.after change)

/-- What has been written into a table, the latest first, when the changes are
    given in that order too. Of what came before the table was built nothing is
    left. The package that the files belong to gets the empty alias, and every
    other package its short name. -/
def writes : List Change → List (String × String)
  | [] => []
  | .set path localName :: earlier => (path, localName) :: writes earlier
  | .build origin packages :: _ =>
    (packages.map fun p => (p.path, if p.path = origin.path then "" else p.name)).reverse

/-- The alias last written for a path since the table was built. -/
def lastWritten? (changes : List Change) (path : String) : Option String :=
  (writes changes.reverse).lookup path

/-- Looking through pairs made from packages is looking for the package. -/
theorem lookup_map_packages (f : Package → String) (packages : List Package) (path : String) :
    (packages.map fun p => (p.path, f p)).lookup path =
      (packages.find? (·.path == path)).map f := by
  induction packages with
  | nil => rfl
  | cons p ps ih =>
      rw [List.map_cons, List.lookup_cons, List.find?_cons, ih, Bool.beq_comm]
      cases p.path == path <;> rfl

/-- A table gives at each path what was last written for it. -/
theorem get?_afterAll (changes : List Change) (path : String) :
    (changes.foldl after empty).get? path = lastWritten? changes path := by
  induction changes using List.reverseRecOn with
  | nil => rfl
  | append_singleton earlier change ih =>
      rw [List.foldl_append, List.foldl_cons, List.foldl_nil, lastWritten?, List.reverse_append,
        List.reverse_singleton, List.singleton_append]
      cases change with
      | set other localName =>
          rw [after, get?_insert, ih, writes, List.lookup_cons]
          -- The path that was just set has its new alias. Nothing changes for the others.
          by_cases h : path = other
          · rw [if_pos h, beq_iff_eq.mpr h]
          · rw [if_neg h, beq_eq_false_iff_ne.mpr h]
            rfl
      | build origin packages =>
          -- The tables before this one do not matter, nor do their writes.
          rw [after, get?_ofPackages, writes, ← List.map_reverse, lookup_map_packages]
          congr 1
          funext p
          simp only [aliasIn, Package.same, beq_iff_eq]

/-- After any changes there is a table, and all its views show the alias last written
    for each path since the table was built. -/
theorem run_shows (changes : List Change) : ∃ table,
    (empty.run changes : Logged ε AliasTable).result = .ok table ∧
      table.Shows (lastWritten? changes) := by
  refine ⟨_, result_run empty changes, ?_⟩
  rw [← funext (get?_afterAll changes)]
  exact shows_get? _

/-- A path that is given another alias leaves its group, and may join another. -/
example :
    ([Change.build ⟨"a", "a"⟩ [⟨"x/b", "b"⟩, ⟨"y/b", "b"⟩, ⟨"a", "a"⟩], .set "y/b" "w",
      .set "z/w" "w"].foldl after empty).collisions = [("w", ["y/b", "z/w"])] := by
  decide

end Runs

end AliasTable

end Go

end FunctionalOptions
