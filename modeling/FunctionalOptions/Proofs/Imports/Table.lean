import FunctionalOptions.Go.AliasTable
import Mathlib.Data.List.Perm.Basic

/-!
# What an Alias Table Holds

A table is used through three views: the alias it gives at a path, the lines of
the import block, and the entries behind both. They agree because the entries
ascend, which leaves one entry for each path.

A table is made by setting the alias of one package after the other. Packages
that share a path are one package to the table, and the last of them decides
the alias. It follows that the order of packages matters only among references
to one path that disagree on its short name.

## Main definitions

* `Import.declared`: The name that an import line declares.

## Theorems

* `AliasTable.mem_entries_iff`: The entries are what the table gives at each
  path.
* `AliasTable.ext_get?`: A table is what it gives at each path.
* `AliasTable.get?_ofPackages`: The alias at a path is that of the last package
  with the path.
* `AliasTable.mem_importsFor_iff`: The import lines are the entries with an
  alias whose path is asked for.
* `AliasTable.importsFor_ascending`: The import lines strictly ascend by path.
-/

namespace FunctionalOptions

namespace Go

/-- The name that an import line declares: the one it spells out, or the last
    segment of its path. -/
def Import.declared (line : Import) : String :=
  if line.isNamed then line.localName else lastSegment line.path

/-- A line declares the alias it was made from. -/
theorem Import.declared_eq (line : Import) : line.declared = line.localName := by
  unfold declared isNamed
  by_cases h : line.localName = lastSegment line.path
  · simp only [h, bne_self_eq_false, Bool.false_eq_true, if_false]
  · simp only [bne_iff_ne.mpr h, if_true]

/-- Lists in ascending order with the same members are one list. -/
theorem eq_of_ascending {α : Type} {key : α → String} {xs ys : List α}
    (hxs : xs.Pairwise fun a b => key a < key b) (hys : ys.Pairwise fun a b => key a < key b)
    (h : ∀ a, a ∈ xs ↔ a ∈ ys) : xs = ys := by
  have hnodup {zs : List α} (hzs : zs.Pairwise fun a b => key a < key b) : zs.Nodup := by
    refine hzs.imp ?_
    rintro a _ hlt rfl
    exact String.lt_irrefl _ hlt
  exact ((List.perm_ext_iff_of_nodup (hnodup hxs) (hnodup hys)).mpr h).eq_of_pairwise
    (fun _ _ _ _ hlt hgt => absurd (String.lt_trans hlt hgt) (String.lt_irrefl _)) hxs hys

/-- In an ascending list the lookup of a path finds the entry for it. -/
theorem lookup_of_mem {entries : List (String × String)} (h : Ascending entries)
    {path localName : String} (hmem : (path, localName) ∈ entries) :
    entries.lookup path = some localName := by
  induction entries with
  | nil => exact absurd hmem List.not_mem_nil
  | cons entry rest ih =>
      rcases entry with ⟨other, value⟩
      rcases List.pairwise_cons.mp h with ⟨hbelow, hrest⟩
      rcases List.mem_cons.mp hmem with heq | hmem
      · obtain ⟨rfl, rfl⟩ := Prod.mk.inj heq
        simp only [List.lookup_cons, beq_self_eq_true]
      · -- The entry comes later, so its path is a greater one.
        have hne : path ≠ other := fun heq =>
          String.lt_irrefl _ (heq ▸ hbelow _ hmem)
        simp only [List.lookup_cons, beq_eq_false_iff_ne.mpr hne, ih hrest hmem]

namespace AliasTable

/-- The entries are what the table gives at each path. -/
theorem mem_entries_iff (table : AliasTable) (path localName : String) :
    (path, localName) ∈ table.entries ↔ table.get? path = some localName := by
  refine ⟨lookup_of_mem table.ascending, fun h => ?_⟩
  rcases List.lookup_eq_some_iff.mp h with ⟨before, after, hentries, -⟩
  rw [hentries]
  exact List.mem_append_right _ List.mem_cons_self

/-- A table is what it gives at each path. -/
theorem ext_get? {a b : AliasTable} (h : ∀ path, a.get? path = b.get? path) : a = b := by
  have hentries : a.entries = b.entries :=
    eq_of_ascending a.ascending b.ascending fun ⟨path, localName⟩ => by
      rw [mem_entries_iff, mem_entries_iff, h path]
  cases a
  cases b
  congr

/-- Setting the aliases of packages, from the last one looked at backwards. -/
theorem get?_foldl_insert (origin : Package) (packages : List Package) (table : AliasTable)
    (path : String) :
    (packages.foldl (fun t p => t.insert p.path (aliasIn origin p)) table).get? path =
      ((packages.reverse.find? (·.path == path)).map (aliasIn origin)).or (table.get? path) := by
  induction packages generalizing table with
  | nil => rfl
  | cons p ps ih =>
      -- This package counts only if none behind it has the path.
      rw [List.foldl_cons, ih, List.reverse_cons, List.find?_append, get?_insert]
      cases ps.reverse.find? (·.path == path) with
      | some q => rfl
      | none =>
          by_cases h : p.path = path
          · simp [h]
          · simp [h, Ne.symm h]

/-- The alias at a path is that of the last package with the path. -/
theorem get?_ofPackages (origin : Package) (packages : List Package) (path : String) :
    (ofPackages origin packages).get? path =
      (packages.reverse.find? (·.path == path)).map (aliasIn origin) := by
  rw [ofPackages, get?_foldl_insert]
  exact Option.or_none

/-- The table of a list of packages has an alias for every one of them, which is
    that of some package with the path. -/
theorem get?_ofPackages_of_mem (origin : Package) {packages : List Package} {p : Package}
    (h : p ∈ packages) : ∃ q ∈ packages, q.path = p.path ∧
      (ofPackages origin packages).get? p.path = some (aliasIn origin q) := by
  rw [get?_ofPackages]
  cases hfind : packages.reverse.find? (·.path == p.path) with
  | none =>
      have hno := List.find?_eq_none.mp hfind p (List.mem_reverse.mpr h)
      exact absurd (beq_self_eq_true p.path) hno
  | some q =>
      have hmem := List.mem_reverse.mp (List.mem_of_find?_eq_some hfind)
      have hpath : (q.path == p.path) = true :=
        List.find?_some (p := fun r : Package => r.path == p.path) hfind
      exact ⟨q, hmem, beq_iff_eq.mp hpath, rfl⟩

/-- Import lines are the entries that have an alias. -/
theorem mem_imports_iff (table : AliasTable) (line : Import) :
    line ∈ table.imports ↔
      table.get? line.path = some line.localName ∧ line.localName ≠ "" := by
  rcases line with ⟨path, localName⟩
  rw [imports, List.mem_map, ← mem_entries_iff]
  constructor
  · rintro ⟨entry, hentry, heq⟩
    rcases List.mem_filter.mp hentry with ⟨hmem, halias⟩
    obtain ⟨rfl, rfl⟩ := Import.mk.inj heq
    exact ⟨hmem, bne_iff_ne.mp halias⟩
  · rintro ⟨hmem, halias⟩
    exact ⟨_, List.mem_filter.mpr ⟨hmem, bne_iff_ne.mpr halias⟩, rfl⟩

/-- The lines for some packages are those with the path of one of them. -/
theorem mem_importsFor_iff (table : AliasTable) (packages : List Package) (line : Import) :
    line ∈ table.importsFor packages ↔ table.get? line.path = some line.localName ∧
      line.localName ≠ "" ∧ ∃ p ∈ packages, p.path = line.path := by
  rw [importsFor, List.mem_filter, mem_imports_iff, List.any_eq_true, and_assoc]
  simp only [beq_iff_eq]

/-- Import lines strictly ascend by path. -/
theorem imports_ascending (table : AliasTable) :
    table.imports.Pairwise fun a b => a.path < b.path :=
  List.pairwise_map.mpr (table.ascending.filter _)

/-- The lines for some packages strictly ascend by path. -/
theorem importsFor_ascending (table : AliasTable) (packages : List Package) :
    (table.importsFor packages).Pairwise fun a b => a.path < b.path :=
  table.imports_ascending.filter _

end AliasTable

end Go

end FunctionalOptions
