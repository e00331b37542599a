import FunctionalOptions.Proofs.Fallible
import FunctionalOptions.Proofs.Types.Parts

/-!
# Types as They Are Written

A type seen from the outside, as its text tells it. Packages are gone, and
every name is a bare name or a name behind a qualifier. What remains is what a
reader of the file can recover, so this is the form in which two questions are
asked: what a grammar reads back from the text, and which qualifier stands in
front of which name.

Printing a type amounts to choosing the qualifiers and printing the written
type. The second step cannot fail and reports nothing, which leaves all the
failures of the printer to one rule about variadic marks, and all its reports
to packages without an alias.

## Main definitions

* `WrittenType`: A type as its text tells it.
* `WrittenType.text`: The text.
* `TypeExpr.written`: The written form of a type, given the qualifier of each
  package.
* `AliasTable.qualifier`: The qualifier that a table of aliases gives.
* `MarksFit`: The variadic marks of one signature stand where they may.
* `TypeExpr.WellMarked`: The marks of every function type in a type do.

## Theorems

* `misplacedVariadic?_eq_none_iff`: The printer's test is the rule.
* `TypeExpr.render_of_wellMarked`: The text of a well marked type is that of
  its written form.
* `TypeExpr.render_isOk_iff`: A type can be printed when it is well marked, and
  the table of aliases has no say in it.
* `TypeExpr.written_congr`: Only the qualifiers of its own packages matter to
  the written form of a type.
* `TypeExpr.events_render`: Printing reports nothing when every package has an
  alias.
-/

namespace FunctionalOptions

namespace Go

/-- A type as its text tells it: a name may have a qualifier, and there is
    nothing behind a name. The two empty literals count as bare names, since
    they are printed and read as a whole. -/
inductive WrittenType where
  | named (qualifier : Option String) (name : String)
  | pointer (elem : WrittenType)
  | slice (elem : WrittenType)
  | array (len : Nat) (elem : WrittenType)
  | channel (dir : Direction) (elem : WrittenType)
  | map (key value : WrittenType)
  | func (inputs outputs : List (Param WrittenType))

namespace WrittenType

/-- A name behind its qualifier, if it has one. -/
def nameText : Option String → String → String
  | none, name => name
  | some qualifier, name => qualifier ++ "." ++ name

/-- The element of a channel has to be put in parentheses. -/
def needsParens (dir : Direction) (elem : WrittenType) : Bool :=
  match dir, elem with
  | .both, .channel .recv _ => true
  | _, _ => false

mutual

/-- The text of a written type. -/
def text : WrittenType → String
  | .named qualifier name => nameText qualifier name
  | .pointer elem => "*" ++ elem.text
  | .slice elem => "[]" ++ elem.text
  | .array len elem => "[" ++ toString len ++ "]" ++ elem.text
  | .channel dir elem =>
    channelMark dir ++ if needsParens dir elem then "(" ++ elem.text ++ ")" else elem.text
  | .map key value => "map[" ++ key.text ++ "]" ++ value.text
  | .func inputs outputs =>
    "func(" ++ ", ".intercalate (paramTexts inputs) ++ ")" ++
      resultsText outputs (paramTexts outputs)

/-- The texts of parameters, in order. -/
def paramTexts : List (Param WrittenType) → List String
  | [] => []
  | p :: ps => textOfParam p :: paramTexts ps

/-- The text of a parameter. -/
def textOfParam : Param WrittenType → String
  | ⟨name, type, variadic⟩ => paramText (⟨name, type, variadic⟩ : Param WrittenType) type.text

end

end WrittenType

namespace TypeExpr

mutual

/-- The written form of a type, given the qualifier of each package. -/
def written (qualifier : Package → Option String) : TypeExpr → WrittenType
  | .predeclared name => .named none name
  | .named package name => .named (package.bind qualifier) name
  | .pointer elem => .pointer (elem.written qualifier)
  | .slice elem => .slice (elem.written qualifier)
  | .array len elem => .array len.toNat (elem.written qualifier)
  | .channel dir elem => .channel dir (elem.written qualifier)
  | .map key value => .map (key.written qualifier) (value.written qualifier)
  | .func inputs outputs =>
    .func (writtenParams qualifier inputs) (writtenParams qualifier outputs)

/-- The written forms of parameters, in order. -/
def writtenParams (qualifier : Package → Option String) :
    List (Param TypeExpr) → List (Param WrittenType)
  | [] => []
  | p :: ps => writtenParam qualifier p :: writtenParams qualifier ps

/-- The written form of a parameter. -/
def writtenParam (qualifier : Package → Option String) : Param TypeExpr → Param WrittenType
  | ⟨name, type, variadic⟩ => ⟨name, type.written qualifier, variadic⟩

end

end TypeExpr

/-- The texts of parameters are the texts of the single ones. -/
theorem WrittenType.paramTexts_eq (params : List (Param WrittenType)) :
    paramTexts params = params.map fun p => paramText p p.type.text := by
  induction params with
  | nil => rfl
  | cons p ps ih => rw [paramTexts, ih, List.map_cons, textOfParam]

/-- The written forms of parameters are those of the single ones. -/
theorem TypeExpr.writtenParams_eq (qualifier : Package → Option String)
    (params : List (Param TypeExpr)) :
    writtenParams qualifier params =
      params.map fun p => ⟨p.name, p.type.written qualifier, p.variadic⟩ := by
  induction params with
  | nil => rfl
  | cons p ps ih => rw [writtenParams, ih, List.map_cons, writtenParam]

/-- The qualifier that a table of aliases gives to the names of a package. The
    empty alias is no qualifier, and neither is a missing one. -/
def AliasTable.qualifier (aliases : AliasTable) (package : Package) : Option String :=
  (aliases.get? package.path).filter (· != "")

/-- The variadic marks of a signature stand where they may: on its last
    parameter or nowhere. -/
def MarksFit (inputs outputs : List (Param TypeExpr)) : Prop :=
  (∀ p ∈ inputs.dropLast, p.variadic = false) ∧ ∀ p ∈ outputs, p.variadic = false

/-- The variadic marks of a type fit, those of its parts aside. -/
def MarksFitIn : TypeExpr → Prop
  | .func inputs outputs => MarksFit inputs outputs
  | _ => True

/-- The variadic marks of every function type in a type fit. -/
def TypeExpr.WellMarked (n : TypeExpr) : Prop :=
  n.Everywhere MarksFitIn

/-- The test that the printer makes is the rule for marks. -/
theorem misplacedVariadic?_eq_none_iff (inputs outputs : List (Param TypeExpr)) :
    misplacedVariadic? inputs outputs = none ↔ MarksFit inputs outputs := by
  have hunmarked : ∀ params : List (Param TypeExpr),
      params.findIdx? (·.variadic) = none ↔ ∀ p ∈ params, p.variadic = false := by
    intro params
    simp only [List.findIdx?_eq_none_iff]
  unfold misplacedVariadic? MarksFit
  rw [← hunmarked, ← hunmarked]
  cases inputs.dropLast.findIdx? (·.variadic) with
  | some position => simp only [reduceCtorEq, false_and]
  | none => simp only [Option.map_eq_none_iff, true_and]

/-- A name is printed as its written form says. -/
theorem qualify_result (aliases : AliasTable) (package : Option Package) (name : String) :
    (qualify aliases package name).result =
      .ok (WrittenType.nameText (package.bind aliases.qualifier) name) := by
  cases package with
  | none => rfl
  | some package =>
      simp only [qualify, Option.bind_some, AliasTable.qualifier]
      cases aliases.get? package.path with
      | none => rfl
      | some localName =>
          -- An empty alias is found, but it is no qualifier.
          by_cases h : localName = ""
          · simp only [h, if_true, bne_self_eq_false, Option.filter_some, Bool.false_eq_true,
              if_false]
            rfl
          · simp only [h, if_false, Option.filter_some, bne_iff_ne, ne_eq, not_false_eq_true,
              if_true]
            rfl

/-- The parentheses around the element of a channel do not depend on how names
    are qualified. -/
theorem needsParens_written (qualifier : Package → Option String) (dir : Direction)
    (elem : TypeExpr) :
    WrittenType.needsParens dir (elem.written qualifier) = needsParens dir elem := by
  -- The question goes two levels down: to a channel and to its direction.
  cases dir <;> cases elem with
  | channel inner _ => cases inner <;> rfl
  | _ => rfl

/-- What stands around the results depends on their number and names alone. -/
theorem resultsText_written (qualifier : Package → Option String)
    (outputs : List (Param TypeExpr)) (texts : List String) :
    resultsText (TypeExpr.writtenParams qualifier outputs) texts = resultsText outputs texts := by
  match outputs with
  | [] => rfl
  | [⟨none, _, _⟩] => rfl
  | [⟨some _, _, _⟩] => rfl
  | ⟨none, _, _⟩ :: _ :: _ => rfl
  | ⟨some _, _, _⟩ :: _ :: _ => rfl

namespace TypeExpr

/-- A parameter is printed by printing its type. -/
theorem renderParam_eq (aliases : AliasTable) (p : Param TypeExpr) :
    renderParam aliases p = do
      let text ← p.type.render aliases
      return paramText p text := by
  cases p
  rw [renderParam]

/-- Parameters are printed as their written forms say when their types are. -/
theorem renderParams_result {aliases : AliasTable} {params : List (Param TypeExpr)}
    (h : ∀ p ∈ params,
      (p.type.render aliases).result = .ok (p.type.written aliases.qualifier).text) :
    (renderParams aliases params).result =
      .ok (WrittenType.paramTexts (writtenParams aliases.qualifier params)) := by
  induction params with
  | nil => rfl
  | cons p ps ih =>
      have hp := h p List.mem_cons_self
      have hps := ih fun q hq => h q (List.mem_cons_of_mem _ hq)
      simp only [renderParams, renderParam_eq, Logged.result_bind, hp, hps,
        WrittenType.paramTexts_eq, writtenParams_eq, List.map_cons]
      rfl

/-- The text of a well marked type is that of its written form. -/
theorem render_of_wellMarked (aliases : AliasTable) {n : TypeExpr} (h : n.WellMarked) :
    (n.render aliases).result = .ok (n.written aliases.qualifier).text := by
  induction n using inductOn with
  | predeclared name => rfl
  | named package name => exact qualify_result aliases package name
  | pointer elem ih =>
      rw [render, Logged.result_bind, ih (everywhere_pointer.mp h).2]
      rfl
  | slice elem ih =>
      rw [render, Logged.result_bind, ih (everywhere_slice.mp h).2]
      rfl
  | array len elem ih =>
      rw [render, Logged.result_bind, ih (everywhere_array.mp h).2]
      rfl
  | channel dir elem ih =>
      rw [render, Logged.result_bind, ih (everywhere_channel.mp h).2, written, WrittenType.text,
        needsParens_written]
      rfl
  | map key value ihKey ihValue =>
      have hparts := everywhere_map.mp h
      simp only [render, Logged.result_bind, ihKey hparts.2.1, ihValue hparts.2.2]
      rfl
  | func inputs outputs ihIn ihOut =>
      -- The marks of this signature fit, so the printer goes on to its parts.
      rcases everywhere_func.mp h with ⟨hmarks, hin, hout⟩
      have hinputs := renderParams_result fun p hp => ihIn p hp (hin p hp)
      have houtputs := renderParams_result fun p hp => ihOut p hp (hout p hp)
      rw [render, (misplacedVariadic?_eq_none_iff inputs outputs).mpr hmarks]
      simp only [Logged.result_bind, hinputs, houtputs, written, WrittenType.text,
        resultsText_written]
      rfl

/-- Parameters that can be printed have types that can be printed. -/
theorem render_of_renderParams {aliases : AliasTable} {params : List (Param TypeExpr)}
    {texts : List String} (h : (renderParams aliases params).result = .ok texts) :
    ∀ p ∈ params, ∃ text, (p.type.render aliases).result = .ok text := by
  induction params generalizing texts with
  | nil =>
      intro p hp
      exact absurd hp List.not_mem_nil
  | cons q qs ih =>
      simp only [renderParams, renderParam_eq, Logged.result_bind_eq_ok_iff] at h
      rcases h with ⟨_, ⟨text, htext, _⟩, _, hrest, _⟩
      intro p hp
      rcases List.mem_cons.mp hp with rfl | hp
      · exact ⟨text, htext⟩
      · exact ih hrest p hp

/-- A type that can be printed is well marked. -/
theorem wellMarked_of_render {aliases : AliasTable} {n : TypeExpr} {text : String}
    (h : (n.render aliases).result = .ok text) : n.WellMarked := by
  -- Only function types are tested; elsewhere the parts have been printed too.
  induction n using inductOn generalizing text with
  | predeclared name => exact everywhere_predeclared.mpr trivial
  | named package name => exact everywhere_named.mpr trivial
  | pointer elem ih =>
      rcases (Logged.result_bind_eq_ok_iff _ _ _).mp h with ⟨_, helem, _⟩
      exact everywhere_pointer.mpr ⟨trivial, ih helem⟩
  | slice elem ih =>
      rcases (Logged.result_bind_eq_ok_iff _ _ _).mp h with ⟨_, helem, _⟩
      exact everywhere_slice.mpr ⟨trivial, ih helem⟩
  | array len elem ih =>
      rcases (Logged.result_bind_eq_ok_iff _ _ _).mp h with ⟨_, helem, _⟩
      exact everywhere_array.mpr ⟨trivial, ih helem⟩
  | channel dir elem ih =>
      rcases (Logged.result_bind_eq_ok_iff _ _ _).mp h with ⟨_, helem, _⟩
      exact everywhere_channel.mpr ⟨trivial, ih helem⟩
  | map key value ihKey ihValue =>
      simp only [render, Logged.result_bind_eq_ok_iff] at h
      rcases h with ⟨_, hkey, _, hvalue, _⟩
      exact everywhere_map.mpr ⟨trivial, ihKey hkey, ihValue hvalue⟩
  | func inputs outputs ihIn ihOut =>
      rw [render] at h
      cases hmarks : misplacedVariadic? inputs outputs with
      | some error =>
          rw [hmarks] at h
          exact nomatch h
      | none =>
          rw [hmarks] at h
          simp only [Logged.result_bind_eq_ok_iff] at h
          rcases h with ⟨_, hin, _, hout, _⟩
          refine everywhere_func.mpr
            ⟨(misplacedVariadic?_eq_none_iff inputs outputs).mp hmarks, fun p hp => ?_,
              fun p hp => ?_⟩
          · exact (render_of_renderParams hin p hp).elim fun _ => ihIn p hp
          · exact (render_of_renderParams hout p hp).elim fun _ => ihOut p hp

/-- Only the qualifiers of its own packages decide the written form of a
    type. -/
theorem written_congr {f g : Package → Option String} {n : TypeExpr}
    (h : ∀ package ∈ n.packages, f package = g package) : n.written f = n.written g := by
  -- Parameters are compared one by one, which is the same for those of a type and its results.
  have hparams : ∀ params : List (Param TypeExpr),
      (∀ p ∈ params, p.type.written f = p.type.written g) →
        writtenParams f params = writtenParams g params := by
    intro params hparams
    rw [writtenParams_eq, writtenParams_eq]
    exact List.map_congr_left fun p hp => by rw [hparams p hp]
  induction n using inductOn with
  | predeclared name => rfl
  | named package name =>
      cases package with
      | none => rfl
      | some package => exact congrArg (WrittenType.named · name) (h package List.mem_cons_self)
  | pointer elem ih => rw [written, written, ih h]
  | slice elem ih => rw [written, written, ih h]
  | array len elem ih => rw [written, written, ih h]
  | channel dir elem ih => rw [written, written, ih h]
  | map key value ihKey ihValue =>
      rw [written, written, ihKey fun p hp => h p (List.mem_append_left _ hp),
        ihValue fun p hp => h p (List.mem_append_right _ hp)]
  | func inputs outputs ihIn ihOut =>
      -- The packages of a signature are those of its parameters and of its results.
      simp only [packages, paramsPackages_eq, List.mem_append, List.mem_flatMap] at h
      rw [written, written,
        hparams inputs fun p hp => ihIn p hp fun package hp' => h package (Or.inl ⟨p, hp, hp'⟩),
        hparams outputs fun p hp => ihOut p hp fun package hp' => h package (Or.inr ⟨p, hp, hp'⟩)]

/-- A type can be printed exactly when it is well marked, whatever the table of
    aliases. -/
theorem render_isOk_iff (aliases : AliasTable) (n : TypeExpr) :
    (∃ text, (n.render aliases).result = .ok text) ↔ n.WellMarked :=
  ⟨fun ⟨_, h⟩ => wellMarked_of_render h, fun h => ⟨_, render_of_wellMarked aliases h⟩⟩

/-- Printing parameters reports nothing when printing their types does not. -/
theorem events_renderParams {aliases : AliasTable} {params : List (Param TypeExpr)}
    (h : ∀ p ∈ params, (p.type.render aliases).events = []) :
    (renderParams aliases params).events = [] := by
  induction params with
  | nil => rfl
  | cons p ps ih =>
      have hps := ih fun q hq => h q (List.mem_cons_of_mem _ hq)
      have hp : (renderParam aliases p).events = [] := by
        rw [renderParam_eq]
        exact Logged.events_bind_eq_nil (h p List.mem_cons_self) fun _ => rfl
      exact Logged.events_bind_eq_nil hp fun _ => Logged.events_bind_eq_nil hps fun _ => rfl

/-- Printing a type reports nothing when every package in it has an alias. -/
theorem events_render {aliases : AliasTable} {n : TypeExpr}
    (h : ∀ package ∈ n.packages, ∃ localName, aliases.get? package.path = some localName) :
    (n.render aliases).events = [] := by
  induction n using inductOn with
  | predeclared name => rfl
  | named package name =>
      cases package with
      | none => rfl
      | some package =>
          rcases h package (Option.mem_toList.mpr rfl) with ⟨localName, halias⟩
          simp only [render, qualify, halias]
          rfl
  | pointer elem ih => exact Logged.events_bind_eq_nil (ih h) fun _ => rfl
  | slice elem ih => exact Logged.events_bind_eq_nil (ih h) fun _ => rfl
  | array len elem ih => exact Logged.events_bind_eq_nil (ih h) fun _ => rfl
  | channel dir elem ih => exact Logged.events_bind_eq_nil (ih h) fun _ => rfl
  | map key value ihKey ihValue =>
      have hkey := ihKey fun p hp => h p (List.mem_append_left _ hp)
      have hvalue := ihValue fun p hp => h p (List.mem_append_right _ hp)
      exact Logged.events_bind_eq_nil hkey fun _ => Logged.events_bind_eq_nil hvalue fun _ => rfl
  | func inputs outputs ihIn ihOut =>
      simp only [packages, paramsPackages_eq, List.mem_append, List.mem_flatMap] at h
      have hin := events_renderParams fun p hp =>
        ihIn p hp fun package hpackage => h package (Or.inl ⟨p, hp, hpackage⟩)
      have hout := events_renderParams fun p hp =>
        ihOut p hp fun package hpackage => h package (Or.inr ⟨p, hp, hpackage⟩)
      rw [render]
      cases misplacedVariadic? inputs outputs with
      | some error => rfl
      | none =>
          exact Logged.events_bind_eq_nil hin fun _ => Logged.events_bind_eq_nil hout fun _ => rfl

end TypeExpr

end Go

end FunctionalOptions
