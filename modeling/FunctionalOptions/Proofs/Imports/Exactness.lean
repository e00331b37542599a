import FunctionalOptions.Proofs.Imports.Table
import FunctionalOptions.Proofs.Options.Generate

/-!
# Imports Are Exact

The import block of a generated file and the qualifiers in its signatures come
about apart from each other. The block lists the packages of the selected
fields by the aliases of a table that was made from all fields; the printer
looks the aliases up one by one. A package that is imported and not used, or
used and not imported, would make the file useless, since the language refuses
both.

That the two agree has three reasons. The table has an alias for every package
of the record, so the printer never falls back on a bare name. The alias is
empty for the package of the record itself and for no other, since the short
names of the others have been validated. And a line declares the very alias it
was made from, whether or not it spells it out.

What is shown of lines and signatures is shown of the text in the end. The block
and the declarations are written out there, so that nothing between the lines and
the file is left to be trusted.

## Main definitions

* `Go.Import.qualifierIn`: The qualifier that import lines give to a package.
* `Go.Import.block`: An import block, written out.
* `Model.ImportsExact`: The import lines of a model are those its options need.

## Theorems

* `Model.importsExact_of_valid`: The import lines for a valid record are exact.
* `Model.importText_eq`, `Model.functionText_eq`: The parts of a file that name
  packages, written out.
* `Descriptor.Document.generate_imports`: The import block of a generated file is
  exact, and its parameter types are written with the qualifiers that it declares.
-/

namespace FunctionalOptions

namespace Go

/-- The qualifier that import lines give to the names of a package: what the
    line for its path declares, or nothing if there is no such line. -/
def Import.qualifierIn (lines : List Import) (package : Package) : Option String :=
  (lines.find? (·.path == package.path)).map Import.declared

/-- An import block, written out. A line has the path between quotes, and in
    front of it the local name, unless the path ends in it. Without lines there is
    no block. -/
def Import.block (lines : List Import) : String :=
  if lines = [] then ""
  else "import (\n" ++ String.join (lines.map fun line =>
    if line.localName = lastSegment line.path then "\t\"" ++ line.path ++ "\"\n"
    else "\t" ++ line.localName ++ " \"" ++ line.path ++ "\"\n") ++ ")\n\n"

/-- A line is written as it stands in a block. -/
theorem Import.text_eq (line : Import) : line.text =
    if line.localName = lastSegment line.path then "\t\"" ++ line.path ++ "\"\n"
    else "\t" ++ line.localName ++ " \"" ++ line.path ++ "\"\n" := by
  rw [text, isNamed]
  by_cases h : line.localName = lastSegment line.path
  · rw [h, bne_self_eq_false, if_neg Bool.false_ne_true, if_pos rfl]
  · rw [bne_iff_ne.mpr h, if_pos rfl, if_neg h]

/-- The import lines for some packages give each of them the qualifier that the
    table does. -/
theorem AliasTable.qualifierIn_importsFor (table : AliasTable) {packages : List Package}
    {package : Package} (h : package ∈ packages) :
    Import.qualifierIn (table.importsFor packages) package = table.qualifier package := by
  rw [Import.qualifierIn, qualifier]
  cases hfind : (table.importsFor packages).find? (·.path == package.path) with
  | none =>
      -- No line, so that an alias of this path could only be the empty one.
      have hno : ∀ localName, table.get? package.path = some localName → localName = "" := by
        intro localName hget
        by_contra hne
        have hline := (table.mem_importsFor_iff packages ⟨package.path, localName⟩).mpr
          ⟨hget, hne, package, h, rfl⟩
        exact absurd (beq_self_eq_true package.path) (List.find?_eq_none.mp hfind _ hline)
      cases hget : table.get? package.path with
      | none => rfl
      | some localName =>
          rw [hno localName hget]
          rfl
  | some line =>
      have hpath : line.path = package.path := beq_iff_eq.mp
        (List.find?_some (p := fun l : Import => l.path == package.path) hfind)
      rcases (table.mem_importsFor_iff packages line).mp (List.mem_of_find?_eq_some hfind) with
        ⟨hget, hne, -⟩
      rw [← hpath, hget, Option.map_some, line.declared_eq, Option.filter_some,
        if_pos (bne_iff_ne.mpr hne)]

end Go

/-- The table of a valid record gives every package of it an alias, which is
    empty for the package that the record is in, and an identifier for every
    other. -/
theorem Record.get?_ofPackages_of_mem {record : Record} (origin : Go.Package)
    (hvalid : record.validate = .ok ()) {p : Go.Package} (hp : p ∈ record.packages) :
    ∃ localName, (Go.AliasTable.ofPackages origin record.packages).get? p.path = some localName ∧
      (localName = "" ↔ p.path = origin.path) ∧
        (localName ≠ "" → Go.isIdentifier localName = true) := by
  rcases Go.AliasTable.get?_ofPackages_of_mem origin hp with ⟨q, hq, hpath, hget⟩
  refine ⟨_, hget, ?_⟩
  rcases List.mem_flatMap.mp hq with ⟨field, hfield, hq⟩
  have htype := (((Record.validate_eq_ok_iff record).mp hvalid).2.1 field hfield).2
  have hid : Go.isIdentifier q.name = true := htype.package hq
  -- An empty alias could also come from an empty short name.
  have hname : q.name ≠ "" := by
    intro hempty
    rw [hempty] at hid
    exact Bool.false_ne_true hid
  rw [Go.AliasTable.aliasIn, Go.Package.same, hpath]
  by_cases h : p.path = origin.path
  · simp [h]
  · simp [h, hname, hid]

namespace Model

/-- A field is selected when it is not passed over, can be assigned to, and is
    visible outside its package if only those are asked for. -/
theorem mem_selected_iff (model : Model) (field : Record.Field) :
    field ∈ model.selected ↔ field ∈ model.record.fields ∧ field.ignored = false ∧
      field.name ≠ "_" ∧
        (model.settings.visibility = .exportedOnly → field.isExported = true) := by
  rw [selected, List.mem_filter, selects]
  cases model.settings.visibility <;>
    simp [Go.blank, and_assoc]

/-- The import lines of a model are those that its options need. -/
structure ImportsExact (model : Model) : Prop where
  /-- No path comes twice, and the paths are in order. -/
  ascending : model.imports.Pairwise fun a b => a.path < b.path
  /-- The packages that occur in the type of a selected field, and no others,
      are imported; only the package of the record itself is not. -/
  mem_iff : ∀ path, path ∈ model.imports.map (·.path) ↔ path ≠ model.package.path ∧
    ∃ field ∈ model.record.fields, (field.ignored = false ∧ field.name ≠ "_" ∧
      (model.settings.visibility = .exportedOnly → field.isExported = true)) ∧
        ∃ package name, Go.TypeExpr.Within (.named (some package) name) field.type ∧
          package.path = path
  /-- Of the names in the types of selected fields, those of the package of the
      record are without a qualifier, and no others. -/
  bare_iff : ∀ field ∈ model.selected, ∀ package name,
    Go.TypeExpr.Within (.named (some package) name) field.type →
      (Go.Import.qualifierIn model.imports package = none ↔ package.path = model.package.path)

section Resolved

variable {settings : Settings} {package : Go.Package} {record : Record}

/-- The table of a valid record gives every package of it an alias, which is
    empty for the package of the record itself and for no other. -/
theorem get?_of_mem_packages (settings : Settings) (package : Go.Package)
    (hvalid : record.validate = .ok ()) {p : Go.Package}
    (hp : p ∈ record.packages) : ∃ localName,
      (Model.of settings package record).aliases.get? p.path = some localName ∧
        (localName = "" ↔ p.path = package.path) := by
  rcases record.get?_ofPackages_of_mem package hvalid hp with ⟨localName, hget, hempty, -⟩
  exact ⟨localName, hget, hempty⟩

/-- The packages of selected fields are among those of the record. -/
theorem mem_packages_of_selected (model : Model) {field : Record.Field}
    (hfield : field ∈ model.selected) {p : Go.Package} (hp : p ∈ field.type.packages) :
    p ∈ model.record.packages :=
  List.mem_flatMap.mpr ⟨field, (List.mem_filter.mp hfield).1, hp⟩

/-- The import lines give a package of a selected field the qualifier that the
    table does. -/
theorem qualifierIn_imports (model : Model) {field : Record.Field}
    (hfield : field ∈ model.selected) {p : Go.Package} (hp : p ∈ field.type.packages) :
    Go.Import.qualifierIn model.imports p = model.aliases.qualifier p :=
  model.aliases.qualifierIn_importsFor (List.mem_flatMap.mpr ⟨field, hfield, hp⟩)

/-- The import lines for a valid record are exact. -/
theorem importsExact_of_valid (hvalid : record.validate = .ok ()) :
    (Model.of settings package record).ImportsExact where
  ascending := Go.AliasTable.importsFor_ascending _ _
  mem_iff path := by
    constructor
    · -- A line was made from a package with an alias, which is not the empty
      -- one of the record's own package.
      intro hpath
      rcases List.mem_map.mp hpath with ⟨line, hline, rfl⟩
      rcases (Go.AliasTable.mem_importsFor_iff _ _ _).mp hline with ⟨hget, hne, p, hp, hpath⟩
      rcases List.mem_flatMap.mp hp with ⟨field, hfield, hp⟩
      have hrecord := mem_packages_of_selected _ hfield hp
      rcases get?_of_mem_packages settings package hvalid hrecord with
        ⟨localName, hget', hempty⟩
      have hlocal : localName = line.localName := by
        rw [hpath, hget] at hget'
        exact (Option.some.inj hget').symm
      refine ⟨fun horigin => hne ?_, ?_⟩
      · rw [← hlocal, hempty, hpath]
        exact horigin
      · rcases (mem_selected_iff _ _).mp hfield with ⟨hmem, hselected⟩
        rcases (Go.TypeExpr.mem_packages_iff _ _).mp hp with ⟨name, hwithin⟩
        exact ⟨field, hmem, hselected, p, name, hwithin, hpath⟩
    · -- A package that occurs has an alias, and so a line unless it is empty.
      rintro ⟨horigin, field, hmem, hselected, p, name, hwithin, rfl⟩
      have hfield := (mem_selected_iff (Model.of settings package record) field).mpr
        ⟨hmem, hselected⟩
      have hp := (Go.TypeExpr.mem_packages_iff _ _).mpr ⟨name, hwithin⟩
      have hrecord := mem_packages_of_selected _ hfield hp
      rcases get?_of_mem_packages settings package hvalid hrecord with
        ⟨localName, hget, hempty⟩
      refine List.mem_map.mpr ⟨⟨p.path, localName⟩, ?_, rfl⟩
      exact (Go.AliasTable.mem_importsFor_iff _ _ _).mpr
        ⟨hget, fun h => horigin (hempty.mp h), p, List.mem_flatMap.mpr ⟨field, hfield, hp⟩, rfl⟩
  bare_iff field hfield p name hwithin := by
    have hp := (Go.TypeExpr.mem_packages_iff _ _).mpr ⟨name, hwithin⟩
    have hrecord := mem_packages_of_selected _ hfield hp
    rcases get?_of_mem_packages settings package hvalid hrecord with
      ⟨localName, hget, hempty⟩
    rw [qualifierIn_imports _ hfield hp, Go.AliasTable.qualifier, hget]
    by_cases h : localName = ""
    · simp [h, hempty.mp h, Model.of]
    · have hother : p.path ≠ package.path := fun horigin => h (hempty.mpr horigin)
      simp [h, hother, Model.of]

end Resolved

end Model

/-- The import block of a model is that of its lines. -/
theorem Model.importText_eq (model : Model) : model.importText = Go.Import.block model.imports := by
  rw [importText, Go.Import.block]
  simp only [← Go.Import.text_eq]
  cases model.imports with
  | nil => rfl
  | cons line lines => rw [if_neg (List.cons_ne_nil line lines)]

/-- A function is declared with its parameter and the type of it. -/
theorem Model.functionText_eq (model : Model) (function : OptionFunction) :
    model.functionText function =
      "\n" ++ ("func " ++ function.name ++ "(" ++ function.parameter ++ " " ++
        function.parameterType ++ ") " ++ model.settings.optionName ++ " \x7b\n" ++
      "\treturn func(" ++ model.receiver ++ " *" ++ model.record.name ++ ") \x7b\n" ++
      "\t\t" ++ model.receiver ++ "." ++ function.field ++ " = " ++ function.parameter ++ "\n" ++
      "\t\x7d\n" ++ "\x7d\n") :=
  rfl

/-- A text begins as its first part does. -/
theorem head?_append {text : String} {c : Char} (h : text.toList.head? = some c) (rest : String) :
    (text ++ rest).toList.head? = some c := by
  rw [String.toList_append, List.head?_append, h]
  rfl

/-- The fallback is reported by a text that begins in its own way. -/
theorem Go.ne_noAlias {event : Event} {c : Char} (hc : c ≠ 'n')
    (h : event.text.toList.head? = some c) (path name : String) : event ≠ noAlias path name := by
  rintro rfl
  have hn : (noAlias path name).text.toList.head? = some 'n' :=
    head?_append (head?_append (head?_append (head?_append rfl _) _) _) _
  exact hc (Option.some.inj (h.symm.trans hn))

/-- Printing the selected fields of a valid record reports nothing. -/
theorem Model.events_render_selected {settings : Settings} {package : Go.Package}
    {record : Record} (hvalid : record.validate = .ok ()) {field : Record.Field}
    (hfield : field ∈ (Model.of settings package record).selected) :
    (field.type.render (Model.of settings package record).aliases).events = [] :=
  Go.TypeExpr.events_render fun _ hp =>
    (get?_of_mem_packages _ _ hvalid (mem_packages_of_selected _ hfield hp)).imp fun _ h => h.1

/-- A run never reports that a package has no alias. -/
theorem Descriptor.Document.noAlias_not_mem_events (document : Document) (name : String)
    (settings : Settings) (path typeName : String) :
    Go.noAlias path typeName ∉ (document.generate name settings).events := by
  intro h
  -- Every other report begins with a letter of its own.
  rw [mem_events_generate_iff] at h
  rcases h with h | ⟨package, record, hload, h | h | h | ⟨functions, -, h⟩⟩
  · rcases mem_events_load _ _ h with ⟨option, h⟩
    refine Go.ne_noAlias (c := 'i') (by decide) ?_ _ _ h.symm
    iterate 4 refine head?_append ?_ _
    rfl
  · refine Go.ne_noAlias (c := 'l') (by decide) ?_ _ _ h.symm
    iterate 5 refine head?_append ?_ _
    rfl
  · rcases List.mem_append.mp h with h | h
    · rcases List.mem_map.mp h with ⟨p, -, h⟩
      refine Go.ne_noAlias (c := 'a') (by decide) ?_ _ _ h
      iterate 4 refine head?_append ?_ _
      rfl
    · rcases List.mem_map.mp h with ⟨⟨localName, paths⟩, -, h⟩
      refine Go.ne_noAlias (c := 'p') (by decide) ?_ _ _ h
      iterate 4 refine head?_append ?_ _
      rfl
  · have hvalid := validate_of_load hload
    rcases Model.events_functionsOf _ _ _ (fun _ => Model.events_render_selected hvalid) h with
      ⟨function, h⟩
    refine Go.ne_noAlias (c := 'f') (by decide) ?_ _ _ h.symm
    iterate 8 refine head?_append ?_ _
    rfl
  · refine Go.ne_noAlias (c := 'g') (by decide) ?_ _ _ h.symm
    iterate 3 refine head?_append ?_ _
    rfl

/-- The import block of a generated file is exact, and its parameter types are
    written with the qualifiers that the block declares. -/
theorem Descriptor.Document.generate_imports {document : Document} {name : String}
    {settings : Settings} {text : String} (h : (document.generate name settings).result = .ok text) :
    ∃ package record model lines, ∃ (functions : List OptionFunction),
      (document.load name).result = .ok (package, record) ∧
      model = Model.of settings package record ∧ lines = model.imports ∧
      model.ImportsExact ∧
      functions.map (fun function => (function.field, function.parameterType)) =
        model.selected.map (fun field =>
          (field.name, (field.type.written (Go.Import.qualifierIn lines)).text)) ∧
      text = model.headerText ++ Go.Import.block lines ++ model.optionTypeText ++ "\n" ++
        model.applyText ++ String.join (functions.map fun function =>
          "\n" ++ ("func " ++ function.name ++ "(" ++ function.parameter ++ " " ++
            function.parameterType ++ ") " ++ model.settings.optionName ++ " \x7b\n" ++
          "\treturn func(" ++ model.receiver ++ " *" ++ model.record.name ++ ") \x7b\n" ++
          "\t\t" ++ model.receiver ++ "." ++ function.field ++ " = " ++ function.parameter ++
            "\n" ++ "\t\x7d\n" ++ "\x7d\n")) ∧
      ∀ path typeName, Go.noAlias path typeName ∉ (document.generate name settings).events := by
  rcases (document.generate_eq_ok_iff name settings text).mp h with
    ⟨package, record, functions, hload, hfunctions, htext⟩
  have hvalid := ((document.load_eq_ok_iff name package record).mp hload).2.2.1
  refine ⟨package, record, _, _, functions, hload, rfl, rfl, Model.importsExact_of_valid hvalid,
    ?_, ?_, document.noAlias_not_mem_events name settings⟩
  · have hemits := (List.forall₂_and_left _ _).mpr
      ⟨fun _ hfield => hfield, Model.emits_of_functionsOf _ _ _ hfunctions⟩
    -- The two lists agree entry by entry, each function with its own field.
    refine Eq.symm ?_
    rw [← List.forall₂_eq_eq_eq, List.forall₂_map_left_iff, List.forall₂_map_right_iff]
    refine hemits.imp fun field function ⟨hfield, hemit⟩ => ?_
    have htype := (((Record.validate_eq_ok_iff record).mp hvalid).2.1 field
      (List.mem_filter.mp hfield).1).2
    have hprinted := hemit.type_eq
    rw [Go.TypeExpr.render_of_wellMarked _ htype.wellMarked,
      Go.TypeExpr.written_congr fun _ hp => (Model.qualifierIn_imports _ hfield hp).symm]
      at hprinted
    rw [hemit.field_eq, Except.ok.inj hprinted]
  · simp only [← Model.functionText_eq, ← Model.importText_eq]
    exact htext.symm

namespace Descriptor

namespace Document

/-- A document of one record. Of the packages in it one belongs to a field that
    is not exported, one is the package of the record itself, and one has a
    short name that its path does not show. -/
def orders : Document :=
  ⟨⟨"example.com/shop", none⟩, [⟨"Order", [
    ⟨"at", .named (some ⟨"time", none⟩) "Time", none⟩,
    ⟨"Lines", .map (.named (some ⟨"example.com/geo/v2", some "geo"⟩) "Point")
      (.pointer (.named (some ⟨"example.com/shop", none⟩) "Line")), none⟩]⟩]⟩

/-- Its record. -/
def order : FunctionalOptions.Record :=
  ⟨"Order", [⟨"at", .named (some ⟨"time", "time"⟩) "Time", false⟩,
    ⟨"Lines", .map (.named (some ⟨"example.com/geo/v2", "geo"⟩) "Point")
      (.pointer (.named (some ⟨"example.com/shop", "shop"⟩) "Line")), false⟩]⟩

theorem load_orders : (orders.load "Order").result = .ok (⟨"example.com/shop", "shop"⟩, order) :=
  (load_eq_ok_iff ..).mpr ⟨by decide, ⟨_, rfl, rfl⟩, by decide, rfl⟩

theorem generate_imports_orders :
    ∃ text model rest, (orders.generate "Order" {}).result = .ok text ∧
      model = Model.of {} ⟨"example.com/shop", "shop"⟩ order ∧
      text = model.headerText ++
        "import (\n\tgeo \"example.com/geo/v2\"\n\t\"time\"\n)\n\n" ++ rest ∧
      ∃ functions : List OptionFunction,
        functions.map (fun function => (function.field, function.parameterType)) =
          [("at", "time.Time"), ("Lines", "map[geo.Point]*Line")] ∧
        rest = model.optionTypeText ++ "\n" ++ model.applyText ++
          String.join (functions.map model.functionText) := by
  have hok : (orders.generate "Order" {}).result.isOk = true := by
    decide
  rcases Except.exists_of_isOk hok with ⟨text, htext⟩
  rcases generate_imports htext with
    ⟨package, record, model, lines, functions, hload, hmodel, hlines, -, hfunctions, hsource, -⟩
  obtain ⟨rfl, rfl⟩ := Prod.mk.inj (Except.ok.inj (hload.symm.trans load_orders))
  have himports : lines = [⟨"example.com/geo/v2", "geo"⟩, ⟨"time", "time"⟩] := by
    rw [hlines, hmodel]
    decide
  have hblock : Go.Import.block lines =
      "import (\n\tgeo \"example.com/geo/v2\"\n\t\"time\"\n)\n\n" := by
    rw [himports]
    decide
  have htypes : functions.map (fun function => (function.field, function.parameterType)) =
      [("at", "time.Time"), ("Lines", "map[geo.Point]*Line")] := by
    rw [hfunctions, himports, hmodel]
    decide
  refine ⟨text, model, _, htext, hmodel, ?_, functions, htypes, rfl⟩
  simp only [← Model.functionText_eq] at hsource
  rw [hsource, hblock]
  simp only [String.append_assoc]

end Document

end Descriptor

end FunctionalOptions
