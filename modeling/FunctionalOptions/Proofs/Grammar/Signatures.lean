import FunctionalOptions.Proofs.Grammar.Soundness
import FunctionalOptions.Proofs.Types.Valid
import Mathlib.Data.List.Basic

/-!
# Signatures Read Back

Which function types keep their parameters. Validation looks at the marks of a
signature and at the names of types and packages, and passes the names of
parameters over. So a valid signature can be printed, but its text need not be
read as the signature that it was printed from: in `func(int, b string)` the
type of the first parameter is the name of the first one to a reader.

What decides is a rule about names. The type has to be well named, which is to
say that its names are names of the language and that the parameters in each of
its lists have names alike; and the aliases in it have to be names. For a valid
type the rule is necessary as well as sufficient, and neither half needs to
look at a text. A well named type has a legible written form, which printing
and reading leave as it is. And no text is read as a written form whose names
are none, since reading is sound.

## Main definitions

* `TypeExpr.WellNamed`: The names everywhere in a type are ones that its text
  can tell.
* `TypeExpr.WellQualified`: So are the qualifiers in front of them.

## Theorems

* `TypeExpr.spelled_written_iff`: The written form of a valid type is spelled
  when the type is well named and well qualified.
* `TypeExpr.ofText?_written_iff`: These are the valid types that are read from
  their texts.
* `Record.ofText?_signature_iff`: The signatures in a valid record that keep
  their parameters.
-/

namespace FunctionalOptions

namespace Go

/-- The names of a type are ones that its text can tell, those of its parts
    aside. -/
def NamesFitIn : TypeExpr → Prop
  | .predeclared name =>
    IsName name ∨ name = "interface\x7b\x7d" ∨ name = "struct\x7b\x7d"
  | .named _ name => IsName name
  | .func inputs outputs => NamedAlike inputs ∧ NamedAlike outputs
  | _ => True

/-- The qualifier of a type is a name, those of its parts aside. -/
def QualifierFitsIn (qualifier : Package → Option String) : TypeExpr → Prop
  | .named package _ => ∀ q ∈ package.bind qualifier, IsName q
  | _ => True

namespace TypeExpr

/-- The names everywhere in a type are ones that its text can tell. -/
def WellNamed (n : TypeExpr) : Prop :=
  n.Everywhere NamesFitIn

/-- The qualifiers everywhere in a type are names. -/
def WellQualified (qualifier : Package → Option String) (n : TypeExpr) : Prop :=
  n.Everywhere (QualifierFitsIn qualifier)

/-- A type is well qualified when the packages in it have names for
    qualifiers. -/
theorem wellQualified_iff (qualifier : Package → Option String) (n : TypeExpr) :
    n.WellQualified qualifier ↔
      ∀ package ∈ n.packages, ∀ q ∈ qualifier package, IsName q := by
  constructor
  · intro h package hpackage
    rcases (mem_packages_iff n package).mp hpackage with ⟨name, hwithin⟩
    exact h _ hwithin
  · intro h t ht
    -- Only names have qualifiers, and their packages are those of the type.
    cases t with
    | named package name =>
        intro q hq
        rcases Option.bind_eq_some_iff.mp hq with ⟨p, rfl, hq⟩
        exact h p ((mem_packages_iff n p).mpr ⟨name, ht⟩) q hq
    | _ => trivial

end TypeExpr

/-! ## Spelled and named -/

section Spelling

variable {elem key value : WrittenType}

theorem spelled_predeclared {name : String} :
    Spelled (.named none name) ↔
      IsName name ∨ name = "interface\x7b\x7d" ∨ name = "struct\x7b\x7d" := by
  constructor
  · intro h
    cases h with
    | bare hname => exact Or.inl hname
    | emptyInterface => simp
    | emptyStruct => simp
  · rintro (hname | rfl | rfl)
    · exact .bare hname
    · exact .emptyInterface
    · exact .emptyStruct

/-- An identifier is spelled as the name of a type when it is a name, and so is
    what it is qualified by. -/
theorem spelled_named {qualifier : Option String} {name : String}
    (hid : isIdentifier name = true) :
    Spelled (.named qualifier name) ↔ IsName name ∧ ∀ q ∈ qualifier, IsName q := by
  constructor
  · intro h
    cases qualifier with
    | none => exact ⟨h.isName hid, by simp⟩
    | some qualifier =>
        cases h with
        | qualified hq hname => simp [hq, hname]
  · rintro ⟨hname, hq⟩
    cases qualifier with
    | none => exact .bare hname
    | some qualifier => exact .qualified (hq qualifier rfl) hname

/-- A name has no parts in which a mark could be misplaced. -/
theorem legible_named {qualifier : Option String} {name : String}
    (h : Spelled (.named qualifier name)) : Legible (.named qualifier name) := by
  cases h with
  | bare hname => exact .bare hname
  | qualified hq hname => exact .qualified hq hname
  | emptyInterface => exact .emptyInterface
  | emptyStruct => exact .emptyStruct

theorem spelled_pointer : Spelled (.pointer elem) ↔ Spelled elem :=
  ⟨fun | .pointer h => h, .pointer⟩

theorem spelled_slice : Spelled (.slice elem) ↔ Spelled elem :=
  ⟨fun | .slice h => h, .slice⟩

theorem spelled_array {len : Nat} : Spelled (.array len elem) ↔ Spelled elem :=
  ⟨fun | .array h => h, .array⟩

theorem spelled_channel {dir : Direction} : Spelled (.channel dir elem) ↔ Spelled elem :=
  ⟨fun | .channel h => h, .channel⟩

theorem spelled_map : Spelled (.map key value) ↔ Spelled key ∧ Spelled value :=
  ⟨fun | .map hkey hvalue => ⟨hkey, hvalue⟩, fun ⟨hkey, hvalue⟩ => .map hkey hvalue⟩

theorem spelled_func {inputs outputs : List (Param WrittenType)} :
    Spelled (.func inputs outputs) ↔ (NamedAlike inputs ∧ NamedAlike outputs) ∧
      (∀ p ∈ inputs, Spelled p.type) ∧ ∀ p ∈ outputs, Spelled p.type :=
  ⟨fun | .func hin hout hinputs houtputs => ⟨⟨hin, hout⟩, hinputs, houtputs⟩,
    fun ⟨⟨hin, hout⟩, hinputs, houtputs⟩ => .func hin hout hinputs houtputs⟩

end Spelling

namespace TypeExpr

variable {qualifier : Package → Option String}

/-- Whether parameters are named alike does not depend on their types. -/
theorem namedAlike_writtenParams {params : List (Param TypeExpr)} :
    NamedAlike (writtenParams qualifier params) ↔ NamedAlike params := by
  simp only [writtenParams_eq, NamedAlike, List.forall_mem_map]

/-- The written form of a valid type is spelled when the type is well named and
    well qualified. -/
theorem spelled_written_iff {n : TypeExpr} (h : n.Valid) :
    Spelled (n.written qualifier) ↔ n.WellNamed ∧ n.WellQualified qualifier := by
  unfold WellNamed WellQualified
  induction n using inductOn with
  | predeclared name =>
      simp only [everywhere_predeclared, QualifierFitsIn, and_true]
      exact spelled_predeclared
  | named package name =>
      -- A valid name is an identifier, so it is neither of the two literals.
      simp only [everywhere_named]
      exact spelled_named (everywhere_named.mp h).1
  | pointer elem ih =>
      simp only [everywhere_pointer, NamesFitIn, QualifierFitsIn, true_and]
      exact spelled_pointer.trans (ih (everywhere_pointer.mp h).2)
  | slice elem ih =>
      simp only [everywhere_slice, NamesFitIn, QualifierFitsIn, true_and]
      exact spelled_slice.trans (ih (everywhere_slice.mp h).2)
  | array len elem ih =>
      simp only [everywhere_array, NamesFitIn, QualifierFitsIn, true_and]
      exact spelled_array.trans (ih (everywhere_array.mp h).2)
  | channel dir elem ih =>
      simp only [everywhere_channel, NamesFitIn, QualifierFitsIn, true_and]
      exact spelled_channel.trans (ih (everywhere_channel.mp h).2)
  | map key value ihKey ihValue =>
      rcases everywhere_map.mp h with ⟨-, hkey, hvalue⟩
      simp only [everywhere_map, NamesFitIn, QualifierFitsIn, true_and]
      rw [written, spelled_map, ihKey hkey, ihValue hvalue]
      exact and_and_and_comm
  | func inputs outputs ihIn ihOut =>
      rcases everywhere_func.mp h with ⟨-, hin, hout⟩
      have hinputs : (∀ p ∈ inputs, Spelled (p.type.written qualifier)) ↔
          ∀ p ∈ inputs, p.type.Everywhere NamesFitIn ∧
            p.type.Everywhere (QualifierFitsIn qualifier) :=
        forall₂_congr fun p hp => ihIn p hp (hin p hp)
      have houtputs : (∀ p ∈ outputs, Spelled (p.type.written qualifier)) ↔
          ∀ p ∈ outputs, p.type.Everywhere NamesFitIn ∧
            p.type.Everywhere (QualifierFitsIn qualifier) :=
        forall₂_congr fun p hp => ihOut p hp (hout p hp)
      -- Both sides ask the same of the lists, and of each parameter in them.
      rw [written, spelled_func, namedAlike_writtenParams, namedAlike_writtenParams]
      simp only [writtenParams_eq, List.forall_mem_map, hinputs, houtputs, everywhere_func,
        NamesFitIn, QualifierFitsIn, true_and, forall_and]
      constructor
      · rintro ⟨halike, ⟨hin, hqin⟩, hout, hqout⟩
        exact ⟨⟨halike, hin, hout⟩, hqin, hqout⟩
      · rintro ⟨⟨halike, hin, hout⟩, hqin, hqout⟩
        exact ⟨halike, ⟨hin, hqin⟩, hout, hqout⟩

/-- The spelled written form of a well marked type is legible. -/
theorem WellMarked.legible {n : TypeExpr} (hmarks : n.WellMarked)
    (h : Spelled (n.written qualifier)) : Legible (n.written qualifier) := by
  induction n using inductOn with
  | predeclared name => exact legible_named h
  | named package name => exact legible_named h
  | pointer elem ih => exact .pointer (ih (everywhere_pointer.mp hmarks).2 (spelled_pointer.mp h))
  | slice elem ih => exact .slice (ih (everywhere_slice.mp hmarks).2 (spelled_slice.mp h))
  | array len elem ih => exact .array (ih (everywhere_array.mp hmarks).2 (spelled_array.mp h))
  | channel dir elem ih =>
      exact .channel (ih (everywhere_channel.mp hmarks).2 (spelled_channel.mp h))
  | map key value ihKey ihValue =>
      rcases everywhere_map.mp hmarks with ⟨-, hkey, hvalue⟩
      rcases spelled_map.mp h with ⟨hspelledKey, hspelledValue⟩
      exact .map (ihKey hkey hspelledKey) (ihValue hvalue hspelledValue)
  | func inputs outputs ihIn ihOut =>
      rcases everywhere_func.mp hmarks with ⟨hfit, hin, hout⟩
      rcases spelled_func.mp h with ⟨⟨halikeIn, halikeOut⟩, hinputs, houtputs⟩
      simp only [writtenParams_eq, List.forall_mem_map] at hinputs houtputs
      -- The marks of results are the one thing that spelling leaves open.
      refine .func halikeIn halikeOut ?_ ?_ ?_
      · simpa only [writtenParams_eq, List.forall_mem_map] using hfit.2
      · simpa only [writtenParams_eq, List.forall_mem_map] using
          fun p hp => ihIn p hp (hin p hp) (hinputs p hp)
      · simpa only [writtenParams_eq, List.forall_mem_map] using
          fun p hp => ihOut p hp (hout p hp) (houtputs p hp)

/-- A valid type is read from the text of its written form when it is well named
    and well qualified, and only then. -/
theorem ofText?_written_iff {n : TypeExpr} (h : n.Valid) :
    WrittenType.ofText? (n.written qualifier).text = some (n.written qualifier) ↔
      n.WellNamed ∧ n.WellQualified qualifier := by
  rw [← spelled_written_iff h]
  -- What is read is spelled. What is spelled is read if the marks are in order, as they are.
  exact ⟨spelled_of_ofText?, fun hspelled => ofText?_text (h.wellMarked.legible hspelled)⟩

end TypeExpr

end Go

namespace Record

open Go

/-- A function type anywhere in a record that has been validated is printed, and
    reading the text gives its parameters and results back, with their names,
    types and marks, when it is well named and its packages have names for
    aliases. Otherwise it does not. -/
theorem ofText?_signature_iff {record : Record} (hvalid : record.validate = .ok ())
    {field : Field} (hfield : field ∈ record.fields) {inputs outputs : List (Param TypeExpr)}
    (hwithin : TypeExpr.Within (.func inputs outputs) field.type) (aliases : AliasTable) :
    ∃ text, ((TypeExpr.func inputs outputs).render aliases).result = .ok text ∧
      (WrittenType.ofText? text =
          some (.func (TypeExpr.writtenParams aliases.qualifier inputs)
            (TypeExpr.writtenParams aliases.qualifier outputs)) ↔
        (TypeExpr.func inputs outputs).WellNamed ∧
          ∀ package ∈ (TypeExpr.func inputs outputs).packages,
            ∀ q ∈ aliases.qualifier package, IsName q) := by
  have htype : field.type.Valid := (((validate_eq_ok_iff record).mp hvalid).2.1 field hfield).2
  -- The function type is valid as a part of the type of the field.
  have hfunc : (TypeExpr.func inputs outputs).Valid := htype.part hwithin
  refine ⟨_, TypeExpr.render_of_wellMarked aliases hfunc.wellMarked, ?_⟩
  rw [← TypeExpr.wellQualified_iff, ← TypeExpr.ofText?_written_iff hfunc, TypeExpr.written]

/-- The field is `Handlers map[string]func(ctx context.Context, names ...string) (int, error)`,
    and the text of the function in it is read as it was printed. -/
theorem ofText?_signature_handlers : ∃ text,
    ((TypeExpr.func
      [⟨some "ctx", .named (some ⟨"context", "context"⟩) "Context", false⟩,
        ⟨some "names", .predeclared "string", true⟩]
      [⟨none, .predeclared "int", false⟩, ⟨none, .predeclared "error", false⟩]).render
        (AliasTable.empty.insert "context" "context")).result = .ok text ∧
    WrittenType.ofText? text = some (.func
      [⟨some "ctx", .named (some "context") "Context", false⟩,
        ⟨some "names", .named none "string", true⟩]
      [⟨none, .named none "int", false⟩, ⟨none, .named none "error", false⟩]) := by
  have hnames : IsName "ctx" ∧ IsName "Context" ∧ IsName "names" ∧ IsName "string" ∧
      IsName "int" ∧ IsName "error" ∧ IsName "context" := by
    decide
  have hvalid : (⟨"Server", [⟨"Handlers", .map (.predeclared "string") (.func
      [⟨some "ctx", .named (some ⟨"context", "context"⟩) "Context", false⟩,
        ⟨some "names", .predeclared "string", true⟩]
      [⟨none, .predeclared "int", false⟩, ⟨none, .predeclared "error", false⟩]),
      false⟩]⟩ : Record).validate = .ok () := by
    decide
  rcases ofText?_signature_iff hvalid List.mem_cons_self (.value .self)
    (AliasTable.empty.insert "context" "context") with ⟨text, hrender, hread⟩
  refine ⟨text, hrender, hread.mpr ⟨?_, ?_⟩⟩
  · simp [TypeExpr.WellNamed, TypeExpr.everywhere_func, TypeExpr.everywhere_named,
      TypeExpr.everywhere_predeclared, NamesFitIn, NamedAlike, hnames]
  · simp [TypeExpr.packages, TypeExpr.paramsPackages_eq, AliasTable.qualifier, AliasTable.insert,
      AliasTable.empty, AliasTable.get?, insertEntry, hnames]

/-- Validation lets a list through in which only the last parameter has a name.
    The type of the one before it is taken for a name when the text is read, and
    its type is lost. -/
theorem ofText?_signature_mixed :
    (⟨"Config", [⟨"Handler", .func
      [⟨none, .predeclared "int", false⟩, ⟨some "b", .predeclared "string", false⟩] [],
      false⟩]⟩ : Record).validate = .ok () ∧
    ((TypeExpr.func
      [⟨none, .predeclared "int", false⟩, ⟨some "b", .predeclared "string", false⟩] []).render
        AliasTable.empty).result = .ok "func(int, b string)" ∧
    WrittenType.ofText? "func(int, b string)" = some (.func
      [⟨some "int", .named none "string", false⟩, ⟨some "b", .named none "string", false⟩] []) := by
  have htokens : tokens "func(int, b string)".toList =
      [.func, .openParen, .name "int", .comma, .name "b", .name "string", .closeParen] := by
    decide +kernel
  refine ⟨by decide, by decide, ?_⟩
  rw [WrittenType.ofText?, htokens]
  rfl

end Record

end FunctionalOptions
