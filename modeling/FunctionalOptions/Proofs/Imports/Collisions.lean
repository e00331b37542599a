import FunctionalOptions.Proofs.Grammar.Qualifiers
import FunctionalOptions.Proofs.Imports.Exactness

/-!
# No Confusion without Collisions

A table of aliases may give two packages one alias. The printed names of both
then look alike, and nothing in the printer prevents it; the table reports the
collision and leaves it at that. What the report is good for is shown here: as
long as it is empty, printed types are as different as the types are.

Three things have to come together. The report is complete, so that without a
collision an alias belongs to one path and can be traced back to it. The empty
alias belongs to the package of the record and to no other. And the text of a
type tells the type, up to what stands in front of its names.

Some differences are not seen, and should not be: a name of the record's own
package is written like a predeclared one, and the short names of packages are
written only as far as the table has them for an alias. Types are therefore
compared by the paths of the packages other than the record's own.

## Main definitions

* `Go.Package.foreignPath?`: What a package is known by outside its own files.
* `Record.Contains`: A type occurs in a record.

## Theorems

* `Go.AliasTable.collisions_eq_nil_iff`: No collision is reported when no two
  paths share an alias, the empty one aside.
* `Record.render_eq_iff`: Without a collision, two types that occur in a valid
  record are printed alike when they are the same up to bare names.
-/

namespace FunctionalOptions

namespace Go

namespace AliasTable

/-! ## The report -/

theorem mem_insertText {text other : String} {texts : List String} :
    other ∈ insertText text texts ↔ other = text ∨ other ∈ texts := by
  fun_induction insertText text texts with
  | case1 => simp
  | case2 => simp
  | case3 => simp
  | case4 first rest _ _ ih => simp [ih, or_left_comm]

/-- The aliases of a table are those of its import lines. -/
theorem mem_aliases_iff (table : AliasTable) (localName : String) :
    localName ∈ table.aliases ↔ ∃ line ∈ table.imports, line.localName = localName := by
  unfold aliases
  induction table.imports with
  | nil => simp
  | cons line lines ih => simp [mem_insertText, ih, eq_comm]

/-- The paths that go by an alias are those that the table gives it to. -/
theorem mem_pathsOf_iff (table : AliasTable) (localName path : String) :
    path ∈ table.pathsOf localName ↔ table.get? path = some localName ∧ localName ≠ "" := by
  simp only [pathsOf, List.mem_map, List.mem_filter, mem_imports_iff, beq_iff_eq]
  constructor
  · rintro ⟨line, ⟨⟨hget, hne⟩, rfl⟩, rfl⟩
    exact ⟨hget, hne⟩
  · rintro ⟨hget, hne⟩
    exact ⟨⟨path, localName⟩, ⟨⟨hget, hne⟩, rfl⟩, rfl⟩

/-- The paths that go by an alias ascend. -/
theorem ascending_pathsOf (table : AliasTable) (localName : String) :
    (table.pathsOf localName).Pairwise (· < ·) :=
  List.pairwise_map.mpr (table.imports_ascending.filter _)

/-- No path comes twice among those that go by an alias. -/
theorem nodup_pathsOf (table : AliasTable) (localName : String) :
    (table.pathsOf localName).Nodup := by
  -- The paths are in order, so none of them stands twice.
  refine (table.ascending_pathsOf localName).imp ?_
  rintro path _ hlt rfl
  exact String.lt_irrefl _ hlt

/-- No collision is reported when no alias has several paths. -/
theorem collisions_eq_nil_iff_pathsOf (table : AliasTable) :
    table.collisions = [] ↔ ∀ localName, (table.pathsOf localName).length ≤ 1 := by
  simp only [collisions, List.filter_eq_nil_iff, List.forall_mem_map, decide_eq_true_eq, Nat.not_lt]
  refine ⟨fun h localName => ?_, fun h localName _ => h localName⟩
  by_cases hmem : localName ∈ table.aliases
  · exact h localName hmem
  · -- An alias of no line has no path at all.
    have hnone : table.pathsOf localName = [] := by
      refine List.eq_nil_iff_forall_not_mem.mpr fun path hpath => hmem ?_
      rw [mem_aliases_iff]
      exact ⟨⟨path, localName⟩, (mem_imports_iff _ _).mpr ((mem_pathsOf_iff _ _ _).mp hpath), rfl⟩
    simp [hnone]

/-- No collision is reported when no two paths share an alias, the empty one
    aside. -/
theorem collisions_eq_nil_iff (table : AliasTable) :
    table.collisions = [] ↔ ∀ path other localName, localName ≠ "" →
      table.get? path = some localName → table.get? other = some localName → path = other := by
  rw [collisions_eq_nil_iff_pathsOf]
  constructor
  · intro h path other localName hne hpath hother
    have hpaths := h localName
    have hpath' := (mem_pathsOf_iff table localName path).mpr ⟨hpath, hne⟩
    have hother' := (mem_pathsOf_iff table localName other).mpr ⟨hother, hne⟩
    match hlist : table.pathsOf localName with
    | [] => simp [hlist] at hpath'
    | [only] =>
        rw [hlist] at hpath' hother'
        rw [List.mem_singleton.mp hpath', List.mem_singleton.mp hother']
    | _ :: _ :: _ => simp [hlist] at hpaths
  · intro h localName
    have hnodup := table.nodup_pathsOf localName
    match hlist : table.pathsOf localName with
    | [] => simp
    | [_] => simp
    | first :: second :: _ =>
        -- Two paths in the list would be the same one.
        have hfirst := (mem_pathsOf_iff table localName first).mp (by simp [hlist])
        have hsecond := (mem_pathsOf_iff table localName second).mp (by simp [hlist])
        have hsame := h first second localName hfirst.2 hfirst.1 hsecond.1
        simp [hlist, hsame] at hnodup

/-- Without a collision an alias leads back to the path it was given to. -/
theorem head?_pathsOf {table : AliasTable} (h : table.collisions = []) {path localName : String}
    (hget : table.get? path = some localName) (hne : localName ≠ "") :
    (table.pathsOf localName).head? = some path := by
  have hmem := (mem_pathsOf_iff table localName path).mpr ⟨hget, hne⟩
  cases hlist : table.pathsOf localName with
  | nil => simp [hlist] at hmem
  | cons first rest =>
      have hfirst := (mem_pathsOf_iff table localName first).mp (by simp [hlist])
      have hsame := (collisions_eq_nil_iff table).mp h first path localName hne hfirst.1 hget
      rw [List.head?_cons, hsame]

end AliasTable

/-- What a package is known by outside its own files: its path, and nothing in
    the files of the package itself. -/
def Package.foreignPath? (origin package : Package) : Option String :=
  if package.same origin then none else some package.path

end Go

namespace Record

open Go

/-- A type occurs in a record: it is the type of a field or a part of one. -/
def Contains (record : Record) (n : TypeExpr) : Prop :=
  ∃ field ∈ record.fields, TypeExpr.Within n field.type

variable {record : Record} {origin : Package} {n : TypeExpr}

/-- The packages of a type that occurs in a record are packages of the
    record. -/
theorem Contains.packages (h : record.Contains n) {p : Package} (hp : p ∈ n.packages) :
    p ∈ record.packages := by
  rcases h with ⟨field, hfield, hwithin⟩
  rcases (TypeExpr.mem_packages_iff _ _).mp hp with ⟨name, hname⟩
  refine List.mem_flatMap.mpr ⟨field, hfield, ?_⟩
  exact (TypeExpr.mem_packages_iff _ _).mpr ⟨name, hname.trans hwithin⟩

/-- The types that occur in a valid record are valid. -/
theorem Contains.valid (h : record.Contains n) (hvalid : record.validate = .ok ()) : n.Valid := by
  rcases h with ⟨field, hfield, hwithin⟩
  have htype := (((validate_eq_ok_iff record).mp hvalid).2.1 field hfield).2
  exact htype.part hwithin

section Resolved

variable {p : Package}

/-- The qualifier of a package is its alias, if that is not empty. -/
theorem qualifier_eq (origin : Package) (hvalid : record.validate = .ok ())
    (hp : p ∈ record.packages) : ∃ localName,
      (AliasTable.ofPackages origin record.packages).get? p.path = some localName ∧
        if p.path = origin.path then
          (AliasTable.ofPackages origin record.packages).qualifier p = none
        else localName ≠ "" ∧ isIdentifier localName = true ∧
          (AliasTable.ofPackages origin record.packages).qualifier p = some localName := by
  rcases record.get?_ofPackages_of_mem origin hvalid hp with ⟨localName, hget, hempty, hid⟩
  refine ⟨localName, hget, ?_⟩
  rw [AliasTable.qualifier, hget]
  by_cases h : p.path = origin.path
  · simp [h, hempty.mpr h]
  · have hne : localName ≠ "" := fun heq => h (hempty.mp heq)
    simp [h, hne, hid hne]

/-- The path of a foreign package can be told from its qualifier when no
    collision is reported. -/
theorem foreignPath?_of_qualifier (hvalid : record.validate = .ok ())
    (hcollisions : (AliasTable.ofPackages origin record.packages).collisions = [])
    (hp : p ∈ record.packages) :
    origin.foreignPath? p = ((AliasTable.ofPackages origin record.packages).qualifier p).bind
      fun localName => ((AliasTable.ofPackages origin record.packages).pathsOf localName).head? := by
  rcases qualifier_eq origin hvalid hp with ⟨localName, hget, hqualifier⟩
  rw [Package.foreignPath?, Package.same]
  by_cases h : p.path = origin.path
  · rw [if_pos h] at hqualifier
    simp [h, hqualifier]
  · rw [if_neg h] at hqualifier
    rcases hqualifier with ⟨hne, -, hqualifier⟩
    simp [h, hqualifier, AliasTable.head?_pathsOf hcollisions hget hne]

/-- The qualifier of a package can be told from the path of a foreign one. -/
theorem qualifier_of_foreignPath? (hvalid : record.validate = .ok ()) (hp : p ∈ record.packages) :
    (AliasTable.ofPackages origin record.packages).qualifier p = (origin.foreignPath? p).bind
      fun path => (AliasTable.ofPackages origin record.packages).get? path := by
  rcases qualifier_eq origin hvalid hp with ⟨localName, hget, hqualifier⟩
  rw [Package.foreignPath?, Package.same]
  by_cases h : p.path = origin.path
  · rw [if_pos h] at hqualifier
    simp [h, hqualifier]
  · rw [if_neg h] at hqualifier
    simp [h, hqualifier.2.2, hget]

/-- The text of a well named type that occurs in a valid record tells it. -/
theorem Contains.tellable (h : record.Contains n) (hvalid : record.validate = .ok ())
    (hnamed : n.WellNamed) :
    n.Everywhere (TellableIn (AliasTable.ofPackages origin record.packages).qualifier) := by
  intro t ht
  refine ⟨h.valid hvalid t ht, hnamed t ht, ?_⟩
  rintro package name rfl q hq
  have hp := h.packages ((TypeExpr.mem_packages_iff n package).mpr ⟨name, ht⟩)
  rcases qualifier_eq origin hvalid hp with ⟨localName, -, hqualifier⟩
  by_cases hpath : package.path = origin.path
  · rw [if_pos hpath] at hqualifier
    simp [hqualifier] at hq
  · rw [if_neg hpath] at hqualifier
    simp only [hqualifier.2.2, Option.mem_def, Option.some.injEq] at hq
    exact hq ▸ hqualifier.2.1

end Resolved

/-- Without a collision, two well named types that occur in a valid record are
    printed alike when they are the same up to bare names: names of the record's
    own package count as names of no package, and the names of other packages
    are told apart by path. -/
theorem render_eq_iff (hvalid : record.validate = .ok ())
    (hcollisions : (AliasTable.ofPackages origin record.packages).collisions = [])
    {a b : TypeExpr} (ha : record.Contains a) (hb : record.Contains b)
    (hnamedA : a.WellNamed) (hnamedB : b.WellNamed) :
    ∃ textA textB,
      (a.render (AliasTable.ofPackages origin record.packages)).result = .ok textA ∧
      (b.render (AliasTable.ofPackages origin record.packages)).result = .ok textB ∧
      (textA = textB ↔ a.written origin.foreignPath? = b.written origin.foreignPath?) := by
  refine ⟨_, _, TypeExpr.render_of_wellMarked _ (ha.valid hvalid).wellMarked,
    TypeExpr.render_of_wellMarked _ (hb.valid hvalid).wellMarked, fun htext => ?_, fun hpaths => ?_⟩
  · -- The text tells the qualifiers, and these tell the paths.
    have hwritten := TypeExpr.written_eq_of_text (ha.tellable hvalid hnamedA)
      (hb.tellable hvalid hnamedB) htext
    exact TypeExpr.written_eq_of
      (fun p hp => foreignPath?_of_qualifier hvalid hcollisions (ha.packages hp))
      (fun p hp => foreignPath?_of_qualifier hvalid hcollisions (hb.packages hp)) hwritten
  · -- The other way the paths tell the qualifiers, and no collision matters.
    have hwritten := TypeExpr.written_eq_of
      (fun p hp => qualifier_of_foreignPath? hvalid (ha.packages hp))
      (fun p hp => qualifier_of_foreignPath? hvalid (hb.packages hp)) hpaths
    rw [hwritten]

/-- A record with a list of points of its own package, which is written in two
    ways, and a list of points of a package that goes by a keyword. -/
def places : Record :=
  ⟨"Places",
    [⟨"Near", .slice (.named (some ⟨"example.com/shop", "shop"⟩) "Point"), false⟩,
      ⟨"Here", .slice (.named none "Point"), false⟩,
      ⟨"Far", .map (.predeclared "string")
        (.slice (.named (some ⟨"example.com/map", "map"⟩) "Point")), false⟩]⟩

/-- The lists are `[]Point`, `[]Point` and `[]map.Point`. -/
theorem render_eq_iff_places :
    (∃ near here,
      ((TypeExpr.slice (.named (some ⟨"example.com/shop", "shop"⟩) "Point")).render
        (AliasTable.ofPackages ⟨"example.com/shop", "shop"⟩ places.packages)).result = .ok near ∧
      ((TypeExpr.slice (.named none "Point")).render
        (AliasTable.ofPackages ⟨"example.com/shop", "shop"⟩ places.packages)).result = .ok here ∧
      near = here) ∧
    ∃ near far,
      ((TypeExpr.slice (.named (some ⟨"example.com/shop", "shop"⟩) "Point")).render
        (AliasTable.ofPackages ⟨"example.com/shop", "shop"⟩ places.packages)).result = .ok near ∧
      ((TypeExpr.slice (.named (some ⟨"example.com/map", "map"⟩) "Point")).render
        (AliasTable.ofPackages ⟨"example.com/shop", "shop"⟩ places.packages)).result = .ok far ∧
      near ≠ far := by
  have hvalid : places.validate = .ok () := by decide
  have hcollisions : (AliasTable.ofPackages ⟨"example.com/shop", "shop"⟩
      places.packages).collisions = [] := by decide
  have hnamed : ∀ package, (TypeExpr.slice (.named package "Point")).WellNamed := by
    intro package
    have hname : IsName "Point" := by decide
    simp [TypeExpr.WellNamed, TypeExpr.everywhere_slice, TypeExpr.everywhere_named, NamesFitIn,
      hname]
  have hnear : places.Contains (.slice (.named (some ⟨"example.com/shop", "shop"⟩) "Point")) :=
    ⟨_, List.mem_cons_self, .self⟩
  have hhere : places.Contains (.slice (.named none "Point")) :=
    ⟨_, List.mem_cons_of_mem _ List.mem_cons_self, .self⟩
  have hfar : places.Contains (.slice (.named (some ⟨"example.com/map", "map"⟩) "Point")) :=
    ⟨_, List.mem_cons_of_mem _ (List.mem_cons_of_mem _ List.mem_cons_self), .value .self⟩
  constructor
  · rcases render_eq_iff hvalid hcollisions hnear hhere (hnamed _) (hnamed _) with
      ⟨near, here, hnearText, hhereText, hiff⟩
    exact ⟨near, here, hnearText, hhereText, hiff.mpr rfl⟩
  · rcases render_eq_iff hvalid hcollisions hnear hfar (hnamed _) (hnamed _) with
      ⟨near, far, hnearText, hfarText, hiff⟩
    refine ⟨near, far, hnearText, hfarText, fun heq => ?_⟩
    -- One is known by its path, the other by its bare name.
    simpa [TypeExpr.written, Package.foreignPath?, Package.same] using hiff.mp heq

end Record

end FunctionalOptions
