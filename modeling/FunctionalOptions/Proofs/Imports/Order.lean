import FunctionalOptions.Proofs.Imports.Table
import FunctionalOptions.Record.Basic

/-!
# The Order of Packages

Whether it matters in which order packages are found. A table is made by setting one
alias after the other, and references to one path are references to one package
whatever short names they carry, so of two references that disagree on the short name
the later one decides.

References that agree make the same table in any order. What comes first is overwritten
by what it would have been anyway. References that disagree do not: each of the two can
be put last, and the table then has its alias. So a table is independent of the order of
what it is made from exactly if no path goes by two aliases there.

This is so for single references and for the fields of a record alike. Fields keep the
order of the packages inside them, and a field that disagrees with itself always settles
on the last reference in it. What has to agree are therefore the tables that the fields
would have on their own.

## Main definitions

* `AliasTable.Agree`: Parts of a list of packages do not disagree on an alias.

## Theorems

* `AliasTable.get?_ofPackages_append`: What is set later counts.
* `AliasTable.forall_perm_iff_agree`: Parts make one table in any order exactly if they
  agree.
* `AliasTable.unordered_iff`: The same for references and for the fields of a record.
* `AliasTable.ordered_geo`: References that disagree make two tables.
-/

namespace FunctionalOptions

namespace Go

namespace AliasTable

/-- Of two lists of packages, the second one counts where it has an alias. -/
theorem get?_ofPackages_append (origin : Package) (packages others : List Package)
    (path : String) :
    (ofPackages origin (packages ++ others)).get? path =
      ((ofPackages origin others).get? path).or ((ofPackages origin packages).get? path) := by
  rw [get?_ofPackages, get?_ofPackages, get?_ofPackages, List.reverse_append, List.find?_append]
  cases others.reverse.find? (·.path == path) <;> rfl

/-! ## Parts of a list -/

section Parts

variable {α : Type} (origin : Package) (packagesOf : α → List Package)

/-- Where two of the parts that a list of packages is made of have an alias for a path, it
    is one alias. -/
def Agree (parts : List α) : Prop :=
  ∀ a ∈ parts, ∀ b ∈ parts, ∀ path localName other,
    (ofPackages origin (packagesOf a)).get? path = some localName →
    (ofPackages origin (packagesOf b)).get? path = some other → localName = other

variable {origin packagesOf} {parts others : List α} {path localName : String}

theorem Agree.perm (h : Agree origin packagesOf parts) (hperm : others.Perm parts) :
    Agree origin packagesOf others :=
  fun a ha b hb => h a (hperm.subset ha) b (hperm.subset hb)

/-- An alias comes from one of the parts. -/
theorem exists_part_of_get?
    (h : (ofPackages origin (parts.flatMap packagesOf)).get? path = some localName) :
    ∃ a ∈ parts, (ofPackages origin (packagesOf a)).get? path = some localName := by
  induction parts with
  | nil => exact nomatch h
  | cons first rest ih =>
      rw [List.flatMap_cons, get?_ofPackages_append, Option.or_eq_some_iff] at h
      -- A later part counts first.
      rcases h with h | ⟨-, h⟩
      · rcases ih h with ⟨a, ha, hget⟩
        exact ⟨a, List.mem_cons_of_mem _ ha, hget⟩
      · exact ⟨first, List.mem_cons_self, h⟩

/-- Where a part has an alias, the parts together have one. -/
theorem exists_get?_of_part {a : α} (ha : a ∈ parts)
    (h : (ofPackages origin (packagesOf a)).get? path = some localName) :
    ∃ other, (ofPackages origin (parts.flatMap packagesOf)).get? path = some other := by
  rcases List.append_of_mem ha with ⟨before, after, rfl⟩
  rw [List.flatMap_append, List.flatMap_cons, get?_ofPackages_append, get?_ofPackages_append, h]
  cases (ofPackages origin (after.flatMap packagesOf)).get? path with
  | none => exact ⟨localName, rfl⟩
  | some other => exact ⟨other, rfl⟩

/-- The table of parts that agree has the aliases that some part has. -/
theorem Agree.get?_eq_some_iff (h : Agree origin packagesOf parts) (path localName : String) :
    (ofPackages origin (parts.flatMap packagesOf)).get? path = some localName ↔
      ∃ a ∈ parts, (ofPackages origin (packagesOf a)).get? path = some localName := by
  refine ⟨exists_part_of_get?, ?_⟩
  rintro ⟨a, ha, hget⟩
  -- The table has some alias there. It comes from a part, which agrees with this one.
  rcases exists_get?_of_part ha hget with ⟨other, hother⟩
  rcases exists_part_of_get? hother with ⟨b, hb, hgetb⟩
  rw [hother, h a ha b hb path localName other hget hgetb]

/-- An alias of a part is the one that counts if the part is put last. -/
theorem exists_perm_of_part {a : α} (ha : a ∈ parts)
    (h : (ofPackages origin (packagesOf a)).get? path = some localName) :
    ∃ others : List α, others.Perm parts ∧
      (ofPackages origin (others.flatMap packagesOf)).get? path = some localName := by
  rcases List.append_of_mem ha with ⟨before, after, rfl⟩
  refine ⟨before ++ after ++ [a], ?_, ?_⟩
  · rw [List.append_assoc]
    exact List.perm_append_singleton a after |>.append_left before
  · -- What is put last wins wherever it has an alias.
    rw [List.flatMap_append, List.flatMap_singleton, get?_ofPackages_append, h]
    rfl

/-- Parts make one table in any order exactly if they agree. -/
theorem forall_perm_iff_agree :
    (∀ others : List α, others.Perm parts →
      ofPackages origin (others.flatMap packagesOf) =
        ofPackages origin (parts.flatMap packagesOf)) ↔ Agree origin packagesOf parts := by
  constructor
  · intro h a ha b hb path localName other hget hother
    -- Each of the two aliases counts in some order, and all orders make one table.
    rcases exists_perm_of_part ha hget with ⟨first, hfirst, hget⟩
    rcases exists_perm_of_part hb hother with ⟨second, hsecond, hother⟩
    rw [h first hfirst, ← h second hsecond, hother] at hget
    exact (Option.some.inj hget).symm
  · intro h others hperm
    refine ext_get? fun path => Option.ext fun localName => ?_
    rw [(h.perm hperm).get?_eq_some_iff, h.get?_eq_some_iff]
    simp only [hperm.mem_iff]

end Parts

/-! ## References and fields -/

/-- References agree if those to one package, other than the one the file belongs to,
    have one short name. -/
theorem agree_references_iff (origin : Package) (packages : List Package) :
    Agree origin (fun p => [p]) packages ↔
      ∀ p ∈ packages, ∀ q ∈ packages, p.path = q.path → p.path ≠ origin.path →
        p.name = q.name := by
  have hsingle (p : Package) (path localName : String) :
      (ofPackages origin [p]).get? path = some localName ↔
        p.path = path ∧ aliasIn origin p = localName := by
    rw [get?_ofPackages, List.reverse_singleton, List.find?_singleton]
    by_cases h : p.path = path <;> simp [h]
  have halias (p : Package) (h : p.path ≠ origin.path) : aliasIn origin p = p.name := by
    simp [aliasIn, Package.same, h]
  have horigin (p : Package) (h : p.path = origin.path) : aliasIn origin p = "" := by
    simp [aliasIn, Package.same, h]
  constructor
  · intro h p hp q hq hpath hforeign
    have hnames := h p hp q hq p.path _ _ ((hsingle p _ _).mpr ⟨rfl, rfl⟩)
      ((hsingle q _ _).mpr ⟨hpath.symm, rfl⟩)
    rwa [halias p hforeign, halias q (hpath ▸ hforeign)] at hnames
  · intro h p hp q hq path localName other hget hother
    rcases (hsingle p _ _).mp hget with ⟨rfl, rfl⟩
    rcases (hsingle q _ _).mp hother with ⟨hpath, rfl⟩
    -- The package of the file has the empty alias, whatever it is called.
    by_cases hforeign : p.path = origin.path
    · rw [horigin p hforeign, horigin q (hpath.trans hforeign)]
    · rw [halias p hforeign, halias q (hpath ▸ hforeign)]
      exact h p hp q hq hpath.symm hforeign

/-- The table of some references is the same in any order exactly if those to one package,
    other than the one the file belongs to, have one short name. The table of a record is
    the same in any order of its fields exactly if no two fields would give a package
    different aliases on their own. -/
theorem unordered_iff (origin : Package) :
    (∀ packages : List Package,
      (∀ others : List Package, others.Perm packages →
        ofPackages origin others = ofPackages origin packages) ↔
      ∀ p ∈ packages, ∀ q ∈ packages, p.path = q.path → p.path ≠ origin.path →
        p.name = q.name) ∧
    ∀ record : Record,
      (∀ fields : List Record.Field, fields.Perm record.fields →
        ofPackages origin (Record.packages { record with fields := fields }) =
          ofPackages origin record.packages) ↔
      ∀ f ∈ record.fields, ∀ g ∈ record.fields, ∀ path localName other,
        (ofPackages origin f.type.packages).get? path = some localName →
        (ofPackages origin g.type.packages).get? path = some other → localName = other := by
  refine ⟨fun packages => ?_, fun record => ?_⟩
  · rw [← agree_references_iff, ← forall_perm_iff_agree]
    simp only [List.flatMap_singleton']
  · exact forall_perm_iff_agree

/-- One package under two short names, of which the later one counts. -/
theorem ordered_geo :
    [(⟨"example.com/geo/v2", "geo"⟩ : Package), ⟨"example.com/geo/v2", "v2"⟩].Perm
      [⟨"example.com/geo/v2", "v2"⟩, ⟨"example.com/geo/v2", "geo"⟩] ∧
    ofPackages ⟨"example.com/shop", "shop"⟩
        [⟨"example.com/geo/v2", "geo"⟩, ⟨"example.com/geo/v2", "v2"⟩] ≠
      ofPackages ⟨"example.com/shop", "shop"⟩
        [⟨"example.com/geo/v2", "v2"⟩, ⟨"example.com/geo/v2", "geo"⟩] :=
  ⟨.swap _ _ _, by decide⟩

end AliasTable

end Go

end FunctionalOptions
