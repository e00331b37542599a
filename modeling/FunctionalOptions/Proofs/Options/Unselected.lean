import FunctionalOptions.Proofs.Imports.Block
import FunctionalOptions.Proofs.Options.FunctionList
import FunctionalOptions.Proofs.Options.RenderSafety

/-!
# Fields Without an Option

What the fields that get no option can do to the file. Nothing of them is
printed, but the alias table is made from all fields, and through it a field
that is passed over can still be seen: when it refers to a package that a
selected field refers to as well, the last reference to the package is the one
that decides by which short name the selected field is printed.

So the file depends on the selected fields and on the last references to their
packages, and it depends on these in earnest. The import block stands at the
same place of two files with the same selected fields, its lines have the same
paths, and between those the local names can be told, since none of them has a
quote in it. Only a record that leads to no file at all hides what its
references are.

## Main definitions

* `Record.lastName?`: How the last reference of a record to a path calls the package.
* `Record.CallAlike`: The last references of two records to some packages have one
  short name.

## Theorems

* `Go.TypeExpr.render_congr`, `Go.AliasTable.importsFor_congr`: Types and import
  lines depend on the aliases of their own packages alone.
* `Model.generate_congr`: A file depends on the selected fields and on the
  aliases of their packages.
* `Go.Import.text_append_inj`, `Go.Source.linesText_append_inj`: Import lines whose
  paths are known tell their local names, whatever follows them.
* `Model.imports_eq_of_sourceText`: Files that are the same have the same import lines,
  if the same fields are selected.
* `Model.generate_of_selected_iff`: When fields without an option do not influence the
  file.
* `Model.generate_ne_of_selected`: They can.
-/

namespace FunctionalOptions

namespace Go

namespace TypeExpr

/-- Parameters are printed alike when their types are. -/
theorem renderParams_congr {a b : AliasTable} {params : List (Param TypeExpr)}
    (h : ∀ p ∈ params, p.type.render a = p.type.render b) :
    renderParams a params = renderParams b params := by
  induction params with
  | nil => rfl
  | cons p ps ih =>
      rw [renderParams, renderParams, renderParam_eq, renderParam_eq, h p List.mem_cons_self,
        ih fun q hq => h q (List.mem_cons_of_mem _ hq)]

/-- Only the aliases of its own packages decide how a type is printed, and
    whether it can be. -/
theorem render_congr {a b : AliasTable} {n : TypeExpr}
    (h : ∀ package ∈ n.packages, a.get? package.path = b.get? package.path) :
    n.render a = n.render b := by
  induction n using inductOn with
  | predeclared name => rfl
  | named package name =>
      cases package with
      | none => rfl
      | some package =>
          rw [render, render, qualify, qualify, h package (Option.mem_toList.mpr rfl)]
  | pointer elem ih => rw [render, render, ih h]
  | slice elem ih => rw [render, render, ih h]
  | array len elem ih => rw [render, render, ih h]
  | channel dir elem ih => rw [render, render, ih h]
  | map key value ihKey ihValue =>
      rw [render, render, ihKey fun p hp => h p (List.mem_append_left _ hp),
        ihValue fun p hp => h p (List.mem_append_right _ hp)]
  | func inputs outputs ihIn ihOut =>
      simp only [packages, paramsPackages_eq, List.mem_append, List.mem_flatMap] at h
      rw [render, render,
        renderParams_congr fun p hp => ihIn p hp fun package hp' => h package (Or.inl ⟨p, hp, hp'⟩),
        renderParams_congr fun p hp => ihOut p hp fun package hp' => h package (Or.inr ⟨p, hp, hp'⟩)]

end TypeExpr

/-- Only the aliases of some packages decide about the import lines for
    them. -/
theorem AliasTable.importsFor_congr {a b : AliasTable} {packages : List Package}
    (h : ∀ package ∈ packages, a.get? package.path = b.get? package.path) :
    a.importsFor packages = b.importsFor packages := by
  have hmem : ∀ line, line ∈ a.importsFor packages ↔ line ∈ b.importsFor packages := by
    intro line
    rw [mem_importsFor_iff, mem_importsFor_iff]
    constructor
    · rintro ⟨hget, hne, package, hpackage, hpath⟩
      exact ⟨by rw [← hpath, ← h package hpackage, hpath, hget], hne, package, hpackage, hpath⟩
    · rintro ⟨hget, hne, package, hpackage, hpath⟩
      exact ⟨by rw [← hpath, h package hpackage, hpath, hget], hne, package, hpackage, hpath⟩
  exact eq_of_ascending (a.importsFor_ascending packages) (b.importsFor_ascending packages) hmem

end Go

namespace Model

/-- Emitting functions depends on the fields and on how their types are
    printed. -/
theorem functionsOf_congr {m n : Model} (hsettings : m.settings = n.settings)
    (hname : m.record.name = n.record.name) {fields : List Record.Field}
    (h : ∀ field ∈ fields, field.type.render m.aliases = field.type.render n.aliases)
    (taken : List String) (names : ParameterNames) :
    m.functionsOf taken names fields = n.functionsOf taken names fields := by
  induction fields generalizing taken names with
  | nil => rfl
  | cons field rest ih =>
      have hfunction : m.functionName field = n.functionName field := by
        rw [functionName, functionName, hsettings]
      have hrest := ih fun f hf => h f (List.mem_cons_of_mem field hf)
      simp only [functionsOf, hfunction, hname, h field List.mem_cons_self, hrest]

/-- A file depends on the selected fields and on the aliases of the packages
    that they refer to. -/
theorem generate_congr {m n : Model} (hsettings : m.settings = n.settings)
    (hpackage : m.package = n.package) (hname : m.record.name = n.record.name)
    (hselected : m.selected = n.selected)
    (h : ∀ package ∈ Record.packagesOf m.selected,
      m.aliases.get? package.path = n.aliases.get? package.path) :
    m.generate = n.generate := by
  have hreceiver : m.receiver = n.receiver := by
    rw [receiver, receiver, hname]
  have hfunctions : m.functions = n.functions := by
    rw [functions, functions, hreceiver, ← hselected]
    refine functionsOf_congr hsettings hname (fun field hfield => ?_) _ _
    exact Go.TypeExpr.render_congr fun p hp => h p (List.mem_flatMap.mpr ⟨field, hfield, hp⟩)
  have himports : m.imports = n.imports := by
    rw [imports, imports, ← hselected, Go.AliasTable.importsFor_congr h]
  have happly : m.applyText = n.applyText := by
    unfold applyText
    rw [hsettings, hname, hreceiver]
  have hfunction : m.functionText = n.functionText := by
    funext function
    rw [functionText, functionText, hsettings, hreceiver, hname]
  have hsource : m.sourceText = n.sourceText := by
    funext functions
    rw [sourceText, sourceText, headerText, headerText, importText, importText, optionTypeText,
      optionTypeText, happly, hfunction, hsettings, hpackage, hname, himports]
  rw [generate, generate, hfunctions, hsource, hname]

/-- Selected fields are told apart by their names and types. -/
theorem selected_eq_of_map_eq {m n : Model}
    (h : m.selected.map (fun field => (field.name, field.type)) =
      n.selected.map (fun field => (field.name, field.type))) : m.selected = n.selected := by
  -- None of them is ignored, so the map can be undone.
  have hundo : ∀ model : Model, (model.selected.map fun field => (field.name, field.type)).map
      (fun pair => (⟨pair.1, pair.2, false⟩ : Record.Field)) = model.selected := by
    intro model
    rw [List.map_map]
    refine (List.map_congr_left fun field hfield => ?_).trans (List.map_id _)
    exact congrArg (Record.Field.mk field.name field.type)
      ((model.mem_selected_iff field).mp hfield).2.1.symm
  rw [← hundo m, ← hundo n, h]

end Model

/-! ## What an import block tells -/

namespace Go

/-- A text that ends before a quote can be told from what stands behind the quote. -/
theorem append_quote_inj {front front' back back' : List Char} (hfront : '"' ∉ front)
    (hfront' : '"' ∉ front') (h : front ++ '"' :: back = front' ++ '"' :: back') :
    front = front' ∧ back = back' := by
  have hcut (text rest : List Char) (htext : '"' ∉ text) :
      (text ++ '"' :: rest).takeWhile (· != '"') = text ∧
        (text ++ '"' :: rest).dropWhile (· != '"') = '"' :: rest :=
    Text.takeWhile_append_of_head
      (fun c hc => bne_iff_ne.mpr fun heq => htext (heq ▸ hc)) (by rintro _ ⟨⟩; rfl)
  rcases hcut front back hfront with ⟨htake, hdrop⟩
  rcases hcut front' back' hfront' with ⟨htake', hdrop'⟩
  rw [h] at htake hdrop
  exact ⟨htake.symm.trans htake', (List.cons.inj (hdrop.symm.trans hdrop')).2⟩

/-- There is no quote in an identifier. -/
theorem quote_not_mem_of_isIdentifier {name : String} (h : isIdentifier name = true) :
    '"' ∉ name.toList := by
  rcases word_of_isIdentifier h with ⟨c, rest, hname, -, hparts⟩
  intro hmem
  have hquote : isNamePart '"' = false := by
    rw [isNamePart_ascii (by decide)]
    decide
  exact Bool.false_ne_true (hquote.symm.trans (hparts _ (hname ▸ hmem)))

/-- A line whose path is known tells its local name, whatever follows it. -/
theorem Import.text_append_inj {line other : Import} (hpath : line.path = other.path)
    (hline : '"' ∉ line.localName.toList) (hother : '"' ∉ other.localName.toList)
    {rest rest' : List Char} (h : line.text.toList ++ rest = other.text.toList ++ rest') :
    line = other ∧ rest = rest' := by
  have hquote {l : Import} (hl : '"' ∉ l.localName.toList) : '"' ∉ l.front := by
    unfold front
    split
    · exact List.not_mem_nil
    · simpa using hl
  rw [toList_text, toList_text] at h
  rcases append_quote_inj (hquote hline) (hquote hother) (List.cons.inj h).2 with
    ⟨hfront, hback⟩
  rcases line with ⟨path, localName⟩
  rcases other with ⟨_, otherName⟩
  obtain rfl : path = _ := hpath
  refine ⟨?_, ?_⟩
  · -- A name that is written out has a blank behind it, so it is not taken for none.
    simp only [front] at hfront
    by_cases h₁ : localName = lastSegment path
    · by_cases h₂ : otherName = lastSegment path
      · rw [h₁, h₂]
      · rw [if_pos h₁, if_neg h₂] at hfront
        exact absurd hfront.symm (List.append_ne_nil_of_right_ne_nil _ (List.cons_ne_nil _ _))
    · by_cases h₂ : otherName = lastSegment path
      · rw [if_neg h₁, if_pos h₂] at hfront
        exact absurd hfront (List.append_ne_nil_of_right_ne_nil _ (List.cons_ne_nil _ _))
      · rw [if_neg h₁, if_neg h₂] at hfront
        rw [String.toList_inj.mp (List.append_cancel_right hfront)]
  · have hrest := List.append_cancel_left hback
    exact (List.cons.inj (List.cons.inj hrest).2).2

/-- Lines whose paths are known tell their local names, whatever follows them. -/
theorem Source.linesText_append_inj {lines others : List Import}
    (hpaths : lines.map Import.path = others.map Import.path)
    (hlines : ∀ line ∈ lines, '"' ∉ line.localName.toList)
    (hothers : ∀ line ∈ others, '"' ∉ line.localName.toList) {rest rest' : List Char}
    (h : linesText lines ++ rest = linesText others ++ rest') : lines = others := by
  induction lines generalizing others with
  | nil => exact (List.map_eq_nil_iff.mp hpaths.symm).symm
  | cons line lines ih =>
      cases others with
      | nil => cases hpaths
      | cons other others =>
          rw [List.map_cons, List.map_cons] at hpaths
          rcases List.cons.inj hpaths with ⟨hpath, htail⟩
          rcases List.forall_mem_cons.mp hlines with ⟨hline, hlines'⟩
          rcases List.forall_mem_cons.mp hothers with ⟨hother, hothers'⟩
          rw [linesText, linesText, List.flatMap_cons, List.flatMap_cons, ← linesText, ← linesText,
            List.append_assoc, List.append_assoc] at h
          rcases Import.text_append_inj hpath hline hother h with ⟨rfl, hrest⟩
          rw [ih htail hlines' hothers' hrest]

end Go

/-! ## Last references -/

/-- The short name by which the last reference of a record to a path calls the
    package, if the record refers to the path. -/
def Record.lastName? (record : Record) (path : String) : Option String :=
  (record.packages.reverse.find? (·.path == path)).map Go.Package.name

/-- The last references of two records to each of some packages have one short name.
    The package that the records are in has none to them. -/
def Record.CallAlike (origin : Go.Package) (packages : List Go.Package)
    (record other : Record) : Prop :=
  ∀ p ∈ packages, p.path ≠ origin.path → record.lastName? p.path = other.lastName? p.path

namespace Model

variable {settings : Settings} {package : Go.Package} {record other : Record}

/-- The alias of a package is the short name of the last reference to it. -/
theorem get?_aliases_eq_lastName? {path : String} (hpath : path ≠ package.path) :
    (Model.of settings package record).aliases.get? path = record.lastName? path := by
  show (Go.AliasTable.ofPackages package record.packages).get? path = _
  rw [Go.AliasTable.get?_ofPackages, Record.lastName?]
  cases hfind : record.packages.reverse.find? (·.path == path) with
  | none => rfl
  | some last =>
      have hlast : last.path = path := beq_iff_eq.mp
        (List.find?_some (p := fun p : Go.Package => p.path == path) hfind)
      have hother : last.same package = false := by
        rw [Go.Package.same, hlast]
        exact beq_eq_false_iff_ne.mpr hpath
      rw [Option.map_some, Option.map_some, Go.AliasTable.aliasIn, hother,
        if_neg Bool.false_ne_true]

/-- The record's own package has no alias to write, if the record refers to it. -/
theorem get?_aliases_origin (h : ∃ p ∈ record.packages, p.path = package.path) :
    (Model.of settings package record).aliases.get? package.path = some "" := by
  rcases h with ⟨p, hp, hpath⟩
  rcases Go.AliasTable.get?_ofPackages_of_mem package hp with ⟨q, -, hq, hget⟩
  have hsame : q.same package = true := beq_iff_eq.mpr (hq.trans hpath)
  rw [hpath, Go.AliasTable.aliasIn, hsame, if_pos rfl] at hget
  exact hget

/-- The tables of two records agree on the packages of the fields that both select
    exactly if the records call them alike. -/
theorem aliases_agree_iff
    (hselected : (Model.of settings package record).selected =
      (Model.of settings package other).selected) :
    (∀ p ∈ Record.packagesOf (Model.of settings package record).selected,
      (Model.of settings package record).aliases.get? p.path =
        (Model.of settings package other).aliases.get? p.path) ↔
      record.CallAlike package (Record.packagesOf (Model.of settings package record).selected)
        other := by
  refine forall₂_congr fun p hp => ?_
  by_cases hpath : p.path = package.path
  · -- Both records refer to their own package, so it is without an alias in both.
    rcases List.mem_flatMap.mp hp with ⟨field, hfield, hp⟩
    have hrecord : p ∈ record.packages := mem_packages_of_selected _ hfield hp
    have hother : p ∈ other.packages := mem_packages_of_selected _ (hselected ▸ hfield) hp
    rw [hpath, get?_aliases_origin ⟨p, hrecord, hpath⟩, get?_aliases_origin ⟨p, hother, hpath⟩]
    simp
  · rw [get?_aliases_eq_lastName? hpath, get?_aliases_eq_lastName? hpath]
    simp [hpath]

/-! ## Files that tell them -/

/-- The local names in the import lines of a valid record are identifiers. -/
theorem isIdentifier_of_mem_imports (hvalid : record.validate = .ok ()) {line : Go.Import}
    (h : line ∈ (Model.of settings package record).imports) :
    Go.isIdentifier line.localName = true := by
  rcases (Go.AliasTable.mem_importsFor_iff _ _ _).mp h with ⟨hget, hne, p, hp, hpath⟩
  rcases List.mem_flatMap.mp hp with ⟨field, hfield, hp⟩
  rcases record.get?_ofPackages_of_mem package hvalid (mem_packages_of_selected _ hfield hp) with
    ⟨localName, hget', -, hidentifier⟩
  obtain rfl : localName = line.localName := by
    rw [hpath] at hget'
    exact Option.some.inj (hget'.symm.trans hget)
  exact hidentifier hne

/-- The paths of the import lines of a valid record do not depend on the fields without
    an option. -/
theorem map_path_imports (hrecord : record.validate = .ok ()) (hother : other.validate = .ok ())
    (hselected : (Model.of settings package record).selected =
      (Model.of settings package other).selected) :
    (Model.of settings package record).imports.map Go.Import.path =
      (Model.of settings package other).imports.map Go.Import.path := by
  have hfields {model : Model} {path : String} :
      (∃ field ∈ model.record.fields, (field.ignored = false ∧ field.name ≠ "_" ∧
        (model.settings.visibility = .exportedOnly → field.isExported = true)) ∧
          ∃ p name, Go.TypeExpr.Within (.named (some p) name) field.type ∧ p.path = path) ↔
        ∃ field ∈ model.selected,
          ∃ p name, Go.TypeExpr.Within (.named (some p) name) field.type ∧ p.path = path := by
    simp only [mem_selected_iff, and_assoc]
  refine @Go.eq_of_ascending _ id _ _
    (List.pairwise_map.mpr (importsExact_of_valid hrecord).ascending)
    (List.pairwise_map.mpr (importsExact_of_valid hother).ascending) fun path => ?_
  rw [(importsExact_of_valid hrecord).mem_iff, (importsExact_of_valid hother).mem_iff, hfields,
    hfields, hselected]
  rfl

/-- Files that are the same have the same import lines, if the same fields are selected. -/
theorem imports_eq_of_sourceText (hrecord : record.validate = .ok ())
    (hother : other.validate = .ok ())
    (hselected : (Model.of settings package record).selected =
      (Model.of settings package other).selected) {functions functions' : List OptionFunction}
    (h : (Model.of settings package record).sourceText functions =
      (Model.of settings package other).sourceText functions') :
    (Model.of settings package record).imports = (Model.of settings package other).imports := by
  have hpaths := map_path_imports hrecord hother hselected
  -- The headers are the same, so what stands behind them is.
  have hheader : (Model.of settings package record).headerText =
      (Model.of settings package other).headerText := rfl
  rw [sourceText_eq, sourceText_eq, hheader, String.append_right_inj] at h
  have hchars := congrArg String.toList h
  rw [String.toList_append, String.toList_append] at hchars
  by_cases hnone : (Model.of settings package record).imports = []
  · rw [hnone] at hpaths
    rw [hnone, List.map_eq_nil_iff.mp hpaths.symm]
  · have hnone' : (Model.of settings package other).imports ≠ [] := by
      intro hempty
      rw [hempty] at hpaths
      exact hnone (List.map_eq_nil_iff.mp hpaths)
    rw [toList_importText _ hnone, toList_importText _ hnone', List.append_assoc,
      List.append_assoc, List.append_assoc, List.append_assoc] at hchars
    exact Go.Source.linesText_append_inj hpaths
      (fun _ hline => Go.quote_not_mem_of_isIdentifier (isIdentifier_of_mem_imports hrecord hline))
      (fun _ hline => Go.quote_not_mem_of_isIdentifier (isIdentifier_of_mem_imports hother hline))
      (List.append_cancel_left hchars)

/-- Import lines that are the same give the packages of selected fields the same
    aliases. -/
theorem aliases_eq_of_imports (hrecord : record.validate = .ok ())
    (hother : other.validate = .ok ())
    (hselected : (Model.of settings package record).selected =
      (Model.of settings package other).selected)
    (h : (Model.of settings package record).imports = (Model.of settings package other).imports)
    {p : Go.Package} (hp : p ∈ Record.packagesOf (Model.of settings package record).selected) :
    (Model.of settings package record).aliases.get? p.path =
      (Model.of settings package other).aliases.get? p.path := by
  rcases List.mem_flatMap.mp hp with ⟨field, hfield, hp'⟩
  rcases get?_of_mem_packages settings package hrecord
    (mem_packages_of_selected _ hfield hp') with ⟨localName, hget, hempty⟩
  rcases get?_of_mem_packages settings package hother
    (mem_packages_of_selected _ (hselected ▸ hfield) hp') with ⟨otherName, hget', hempty'⟩
  by_cases hlocal : localName = ""
  · rw [hget, hget', hlocal, hempty'.mpr (hempty.mp hlocal)]
  · -- The package has a line in the one list, so that it is in the other one, too.
    have hline : (⟨p.path, localName⟩ : Go.Import) ∈ (Model.of settings package record).imports :=
      (Go.AliasTable.mem_importsFor_iff _ _ _).mpr ⟨hget, hlocal, p, hp, rfl⟩
    rw [h] at hline
    rw [hget, ((Go.AliasTable.mem_importsFor_iff _ _ _).mp hline).1]

/-! ## Runs -/

/-- A run comes to what its functions come to, put into a file. -/
theorem result_generate (model : Model) :
    model.generate.result = model.functions.result.map model.sourceText := by
  rw [generate, Logged.result_bind]
  cases model.functions.result <;> rfl

/-- The types of the selected fields of a valid record can be printed. -/
theorem prints_of_valid (hvalid : record.validate = .ok ()) :
    ∀ field ∈ (Model.of settings package record).selected,
      (Model.of settings package record).Prints field :=
  fun _ hfield => record.render_of_valid hvalid _ ((mem_selected_iff _ _).mp hfield).1

/-- Why the functions of a valid record cannot be emitted depends on the names of the
    selected fields alone. -/
theorem functions_eq_error_of_selected (hrecord : record.validate = .ok ())
    (hother : other.validate = .ok ()) (hname : record.name = other.name)
    (hselected : (Model.of settings package record).selected =
      (Model.of settings package other).selected) {error : GenerationError}
    (h : (Model.of settings package record).functions.result = .error error) :
    (Model.of settings package other).functions.result = .error error := by
  rcases (functionsOf_eq_error_iff _ _ _ _ _).mp h with
    ⟨before, field, after, hsplit, hbefore, hrefuses⟩
  have hmem : ∀ f ∈ before ++ [field], f ∈ (Model.of settings package record).selected := by
    intro f hf
    rw [hsplit, List.append_cons]
    exact List.mem_append_left after hf
  refine (functionsOf_eq_error_iff _ _ _ _ _).mpr
    ⟨before, field, after, hselected ▸ hsplit, ?_, ?_⟩
  · -- The names do not depend on the record, and all types can be printed.
    refine (emittable_nil_iff _ _).mpr ⟨hbefore.nodup, fun f hf => prints_of_valid hother f ?_⟩
    exact hselected ▸ hmem f (List.mem_append_left _ hf)
  · cases hrefuses with
    | repeated hrepeated =>
        show Refuses _ _ _ (.duplicateFunction record.name _)
        rw [hname]
        exact .repeated hrepeated
    | unprintable _ hcause =>
        rcases prints_of_valid hrecord field
          (hmem field (List.mem_append_right _ List.mem_cons_self)) with ⟨type, htype⟩
        rw [htype] at hcause
        cases hcause

/-- The functions of a valid record can be emitted if they have different names. -/
theorem exists_functions_of_valid (hvalid : record.validate = .ok ())
    (hnodup : ((Model.of settings package record).selected.map fun field =>
      settings.functionPrefix ++ Go.title field.name).Nodup) :
    ∃ functions, (Model.of settings package record).functions.result = .ok functions :=
  (functionsOf_isOk_iff _ _ _ _).mpr
    ((emittable_nil_iff _ _).mpr ⟨hnodup, prints_of_valid hvalid⟩)

/-- Fields without an option do not influence the file of a valid record as long as
    the last reference to each package of a selected field calls it the same. If it does
    not, the files are different ones, unless there is no file because two of the
    selected fields lead to one function. -/
theorem generate_of_selected_iff (hrecord : record.validate = .ok ())
    (hother : other.validate = .ok ()) (hname : record.name = other.name)
    (hselected : (Model.of settings package record).selected.map
        (fun field => (field.name, field.type)) =
      (Model.of settings package other).selected.map (fun field => (field.name, field.type))) :
    (record.CallAlike package (Record.packagesOf (Model.of settings package record).selected)
        other →
      (Model.of settings package record).generate =
        (Model.of settings package other).generate) ∧
    ((Model.of settings package record).generate.result =
        (Model.of settings package other).generate.result ↔
      record.CallAlike package (Record.packagesOf (Model.of settings package record).selected)
          other ∨
        ¬((Model.of settings package record).selected.map fun field =>
          settings.functionPrefix ++ Go.title field.name).Nodup) := by
  have hfields := selected_eq_of_map_eq hselected
  have halike : record.CallAlike package
      (Record.packagesOf (Model.of settings package record).selected) other →
      (Model.of settings package record).generate = (Model.of settings package other).generate :=
    fun h => generate_congr rfl rfl hname hfields ((aliases_agree_iff hfields).mpr h)
  refine ⟨halike, fun h => ?_, ?_⟩
  · by_cases hnodup : ((Model.of settings package record).selected.map fun field =>
        settings.functionPrefix ++ Go.title field.name).Nodup
    · -- Both runs come to a file, and the import blocks of the files tell the names.
      rcases exists_functions_of_valid hrecord hnodup with ⟨functions, hfunctions⟩
      rcases exists_functions_of_valid hother (hfields ▸ hnodup) with ⟨functions', hfunctions'⟩
      rw [result_generate, result_generate, hfunctions, hfunctions'] at h
      have himports := imports_eq_of_sourceText hrecord hother hfields (Except.ok.inj h)
      exact Or.inl ((aliases_agree_iff hfields).mp fun p hp =>
        aliases_eq_of_imports hrecord hother hfields himports hp)
    · exact Or.inr hnodup
  · rintro (h | hrepeated)
    · rw [halike h]
    · -- Neither run comes to a file, and both fail at the same field.
      rw [result_generate, result_generate]
      cases hfunctions : (Model.of settings package record).functions.result with
      | ok functions =>
          have hemittable := (functionsOf_isOk_iff _ _ _ _).mp ⟨functions, hfunctions⟩
          exact absurd hemittable.nodup hrepeated
      | error error =>
          rw [functions_eq_error_of_selected hrecord hother hname hfields hfunctions, Except.map,
            Except.map]

/-- A record with one selected field, whose package has a short name that its
    path does not show. -/
def parcel : Record :=
  ⟨"Parcel", [⟨"Place", .named (some ⟨"example.com/geo/v2", "geo"⟩) "Point", false⟩]⟩

/-- The record with a field behind it that is passed over, refers to the same
    package by the same name, and to another package. -/
def parcelWithCache : Record :=
  parcel.add ⟨"cache", .map (.named (some ⟨"example.com/geo/v2", "geo"⟩) "Cell")
    (.named (some ⟨"sync", "sync"⟩) "Mutex"), true⟩

/-- The record with a field behind it that is passed over, and calls the package
    by the name that its path shows. -/
def parcelWithOrigin : Record :=
  parcel.add ⟨"origin", .named (some ⟨"example.com/geo/v2", "v2"⟩) "Point", true⟩

theorem validate_parcelWithOrigin : parcelWithOrigin.validate = .ok () := by
  decide +kernel

theorem generate_of_selected_parcel :
    (Model.of {} ⟨"example.com/shop", "shop"⟩ parcel).generate =
      (Model.of {} ⟨"example.com/shop", "shop"⟩ parcelWithCache).generate ∧
    (Model.of {} ⟨"example.com/shop", "shop"⟩ parcel).generate.result ≠
      (Model.of {} ⟨"example.com/shop", "shop"⟩ parcelWithOrigin).generate.result := by
  have hparcel : parcel.validate = .ok () := by
    decide
  have hvalid : parcelWithCache.validate = .ok () := by
    decide
  have hcache : parcel.CallAlike ⟨"example.com/shop", "shop"⟩
      (Record.packagesOf (Model.of {} ⟨"example.com/shop", "shop"⟩ parcel).selected)
        parcelWithCache := by
    unfold Record.CallAlike
    decide
  have horigin : ¬parcel.CallAlike ⟨"example.com/shop", "shop"⟩
      (Record.packagesOf (Model.of {} ⟨"example.com/shop", "shop"⟩ parcel).selected)
        parcelWithOrigin := by
    unfold Record.CallAlike
    decide
  have hnodup : ((Model.of {} ⟨"example.com/shop", "shop"⟩ parcel).selected.map fun field =>
      "With" ++ Go.title field.name).Nodup := by
    decide
  refine ⟨(generate_of_selected_iff hparcel hvalid rfl rfl).1 hcache, fun hsame => ?_⟩
  rcases (generate_of_selected_iff hparcel validate_parcelWithOrigin rfl rfl).2.mp hsame with
    halike | hrepeated
  · exact horigin halike
  · exact hrepeated hnodup

/-- Two valid records with the same selected fields need not have the same file.
    A field that is passed over can decide about the qualifier of one that is
    not. -/
theorem generate_ne_of_selected :
    ¬∀ (settings : Settings) (package : Go.Package) (record other : Record),
      record.validate = .ok () → other.validate = .ok () → record.name = other.name →
      (Model.of settings package record).selected.map (fun field => (field.name, field.type)) =
        (Model.of settings package other).selected.map (fun field => (field.name, field.type)) →
      (Model.of settings package record).generate.result =
        (Model.of settings package other).generate.result := by
  intro h
  have hresult := h {} ⟨"example.com/shop", "shop"⟩ parcel parcelWithOrigin
    (by decide) validate_parcelWithOrigin rfl rfl
  have hne : (Model.of {} ⟨"example.com/shop", "shop"⟩ parcel).generate.result.toOption ≠
      (Model.of {} ⟨"example.com/shop", "shop"⟩ parcelWithOrigin).generate.result.toOption := by
    decide
  exact hne (congrArg Except.toOption hresult)

end Model

end FunctionalOptions
