import FunctionalOptions.Proofs.Types.Written
import Mathlib.Data.List.Forall2

/-!
# Types That Are the Same

Equality of types looks through the short names of packages, at any depth. That is
harmless only if nobody who is handed one of two such types can tell which one it
is, and this module goes through those who look at types: the hash, the traversal
that collects packages, and the printer, with whatever table of aliases. None of
them reads a short name. The table itself is made from short names, but it is made
once and then the same for both types.

For the hash more is true. Equal types have one fingerprint, as they must, and
types that are not equal have different ones. A fingerprint can be read back from
its front: every constructor announces itself and every list its length, so no
fingerprint is the beginning of another. That makes equality of types equality of
fingerprints, which is an equivalence without further proof.

## Theorems

* `TypeExpr.sameOn`: Induction on two types that are the same.
* `TypeExpr.readsBack`: A fingerprint can be read back from its front.
* `TypeExpr.same_iff_fingerprint`: Types are the same if their fingerprints are.
* `TypeExpr.packages_of_same`, `TypeExpr.render_of_same`: Types that are the same
  refer to the same packages and are printed alike.
* `TypeExpr.same_indistinguishable`: All of this together.
-/

namespace FunctionalOptions

namespace Go

theorem samePackage_iff {p q : Option Package} :
    samePackage p q = true ↔ p.map (·.path) = q.map (·.path) := by
  cases p <;> cases q <;> simp [samePackage, Package.same]

namespace TypeExpr

/-- Parameters that are the same one by one, given what it is for types. -/
def Alike (sameType : TypeExpr → TypeExpr → Prop) : List (Param TypeExpr) → List (Param TypeExpr) →
    Prop :=
  List.Forall₂ fun p q => p.name = q.name ∧ sameType p.type q.type ∧ p.variadic = q.variadic

theorem sameParams_iff {params others : List (Param TypeExpr)} :
    sameParams params others = true ↔ Alike (fun a b => a.same b = true) params others := by
  induction params generalizing others with
  | nil => cases others <;> simp [sameParams, Alike]
  | cons p ps ih =>
      cases others with
      | nil => simp [sameParams, Alike]
      | cons q qs =>
          rcases p with ⟨name, type, variadic⟩
          rcases q with ⟨name', type', variadic'⟩
          simp only [sameParams, Bool.and_eq_true, ih, Alike, List.forall₂_cons]
          simp [sameParam, and_assoc]

/-- Induction on two types that are the same. -/
@[elab_as_elim]
theorem sameOn {motive : TypeExpr → TypeExpr → Prop} {a b : TypeExpr} (h : a.same b = true)
    (predeclared : ∀ name, motive (.predeclared name) (.predeclared name))
    (named : ∀ p q name, p.map Package.path = q.map Package.path →
      motive (.named p name) (.named q name))
    (pointer : ∀ a b, motive a b → motive (.pointer a) (.pointer b))
    (slice : ∀ a b, motive a b → motive (.slice a) (.slice b))
    (array : ∀ len a b, motive a b → motive (.array len a) (.array len b))
    (channel : ∀ dir a b, a.same b = true → motive a b →
      motive (.channel dir a) (.channel dir b))
    (map : ∀ k l v w, motive k l → motive v w → motive (.map k v) (.map l w))
    (func : ∀ is js os ps, Alike motive is js → Alike motive os ps →
      motive (.func is os) (.func js ps)) : motive a b := by
  have hparams : ∀ {params others : List (Param TypeExpr)},
      (∀ p ∈ params, ∀ t, p.type.same t = true → motive p.type t) →
        sameParams params others = true → Alike motive params others := by
    intro params others ih hsame
    refine ((List.forall₂_and_left _ _).mpr ⟨ih, sameParams_iff.mp hsame⟩).imp ?_
    rintro p q ⟨hp, hname, htype, hvariadic⟩
    exact ⟨hname, hp _ htype, hvariadic⟩
  -- The induction is on the first type. Where the second has another shape, they are not the same.
  induction a using inductOn generalizing b with
  | predeclared name =>
      cases b <;> simp only [same, Bool.false_eq_true, beq_iff_eq] at h
      exact h ▸ predeclared name
  | named package name =>
      cases b <;> simp only [same, Bool.false_eq_true, Bool.and_eq_true, beq_iff_eq] at h
      exact h.2 ▸ named _ _ name (samePackage_iff.mp h.1)
  | pointer elem ih =>
      cases b <;> simp only [same, Bool.false_eq_true] at h
      exact pointer _ _ (ih h)
  | slice elem ih =>
      cases b <;> simp only [same, Bool.false_eq_true] at h
      exact slice _ _ (ih h)
  | array len elem ih =>
      cases b <;> simp only [same, Bool.false_eq_true, Bool.and_eq_true, beq_iff_eq] at h
      exact h.1 ▸ array len _ _ (ih h.2)
  | channel dir elem ih =>
      cases b <;> simp only [same, Bool.false_eq_true, Bool.and_eq_true, beq_iff_eq] at h
      exact h.1 ▸ channel dir _ _ h.2 (ih h.2)
  | map key value ihKey ihValue =>
      cases b <;> simp only [same, Bool.false_eq_true, Bool.and_eq_true] at h
      exact map _ _ _ _ (ihKey h.1) (ihValue h.2)
  | func inputs outputs ihIn ihOut =>
      cases b <;> simp only [same, Bool.false_eq_true, Bool.and_eq_true] at h
      exact func _ _ _ _ (hparams (fun p hp _ => ihIn p hp) h.1)
        (hparams (fun p hp _ => ihOut p hp) h.2)

/-! ## Fingerprints -/

/-- Types that are the same have one fingerprint. -/
theorem fingerprint_of_same {a b : TypeExpr} (h : a.same b = true) :
    a.fingerprint = b.fingerprint := by
  have hparams {params others : List (Param TypeExpr)}
      (h : Alike (fun a b => a.fingerprint = b.fingerprint) params others) :
      paramsFingerprint params = paramsFingerprint others := by
    induction h with
    | nil => rfl
    | @cons p q _ _ hp _ ih =>
        rcases p with ⟨name, type, variadic⟩
        rcases q with ⟨name', type', variadic'⟩
        rcases hp with ⟨rfl, htype, rfl⟩
        simp only [paramsFingerprint, paramFingerprint, ih, htype]
  refine sameOn h ?predeclared ?named ?pointer ?slice ?array ?channel ?map ?func
  case predeclared => exact fun name => rfl
  case named => exact fun p q name hpath => by rw [fingerprint, fingerprint, hpath]
  case pointer => exact fun a b ih => by rw [fingerprint, fingerprint, ih]
  case slice => exact fun a b ih => by rw [fingerprint, fingerprint, ih]
  case array => exact fun len a b ih => by rw [fingerprint, fingerprint, ih]
  case channel => exact fun dir a b _ ih => by rw [fingerprint, fingerprint, ih]
  case map => exact fun k l v w ihKey ihValue => by rw [fingerprint, fingerprint, ihKey, ihValue]
  -- The numbers of parameters and results are part of the fingerprint, and they agree as well.
  case func =>
    intro is js os ps ihIn ihOut
    rw [fingerprint, fingerprint, hparams ihIn, hparams ihOut, ihIn.length_eq, ihOut.length_eq]

/-- An optional text can be read back from the front. -/
theorem optionAtoms_append {x y : Option String} {r s : List Atom}
    (h : optionAtoms x ++ r = optionAtoms y ++ s) : x = y ∧ r = s := by
  cases x <;> cases y <;> simp_all [optionAtoms]

theorem directionNumber_injective {d e : Direction} (h : directionNumber d = directionNumber e) :
    d = e := by
  cases d <;> cases e <;> first | rfl | exact absurd h (by decide)

/-- The fingerprint of a type can be read back from the front. -/
def ReadsBack (a : TypeExpr) : Prop :=
  ∀ b r s, a.fingerprint ++ r = b.fingerprint ++ s → a.same b = true ∧ r = s

/-- So can the fingerprints of parameters, if their number is known. -/
theorem params_readBack {params others : List (Param TypeExpr)} {r s : List Atom}
    (hparams : ∀ p ∈ params, p.type.ReadsBack) (hlength : params.length = others.length)
    (h : paramsFingerprint params ++ r = paramsFingerprint others ++ s) :
    sameParams params others = true ∧ r = s := by
  induction params generalizing others with
  | nil =>
      rw [List.length_nil] at hlength
      rw [List.eq_nil_of_length_eq_zero hlength.symm] at h ⊢
      exact ⟨rfl, h⟩
  | cons p ps ih =>
      rcases others with _ | ⟨q, qs⟩
      · exact absurd hlength (Nat.succ_ne_zero _)
      rcases p with ⟨name, type, variadic⟩
      rcases q with ⟨name', type', variadic'⟩
      rw [List.forall_mem_cons] at hparams
      simp only [paramsFingerprint, paramFingerprint, List.append_assoc] at h
      -- Name, type and mark are taken off the front one after the other, and then the rest.
      rcases optionAtoms_append h with ⟨hname, h⟩
      rcases hparams.1 type' _ _ h with ⟨htype, h⟩
      simp only [List.cons_append, List.nil_append, List.cons.injEq, Atom.kind.injEq] at h
      rcases ih hparams.2 (Nat.succ.inj hlength) h.2 with ⟨hrest, hends⟩
      have hvariadic : variadic = variadic' := by
        cases variadic <;> cases variadic' <;> first | rfl | exact absurd h.1 (by decide)
      exact ⟨by simp [sameParams, sameParam, hname, htype, hvariadic, hrest], hends⟩

/-- A fingerprint that begins like another is that of the same type. -/
theorem readsBack (a : TypeExpr) : a.ReadsBack := by
  induction a using inductOn with
  | predeclared name =>
      intro b r s h
      -- The first atom is that of the kind, which leaves one shape for the other type.
      cases b <;> simp [fingerprint] at h
      exact ⟨by rw [same, h.1, beq_self_eq_true], h.2⟩
  | named package name =>
      intro b r s h
      cases b <;> simp [fingerprint] at h
      rcases optionAtoms_append h with ⟨hpath, h⟩
      simp only [List.cons.injEq, Atom.text.injEq] at h
      exact ⟨by rw [same, samePackage_iff.mpr hpath, h.1, beq_self_eq_true]; rfl, h.2⟩
  | pointer elem ih =>
      intro b r s h
      cases b <;> simp [fingerprint] at h
      exact ih _ r s h
  | slice elem ih =>
      intro b r s h
      cases b <;> simp [fingerprint] at h
      exact ih _ r s h
  | array len elem ih =>
      intro b r s h
      cases b <;> simp [fingerprint] at h
      rcases ih _ r s h.2 with ⟨hsame, hends⟩
      exact ⟨by rw [same, UInt64.toNat_inj.mp h.1, hsame, beq_self_eq_true]; rfl, hends⟩
  | channel dir elem ih =>
      intro b r s h
      cases b <;> simp [fingerprint] at h
      rcases ih _ r s h.2 with ⟨hsame, hends⟩
      exact ⟨by rw [same, directionNumber_injective h.1, hsame, beq_self_eq_true]; rfl, hends⟩
  | map key value ihKey ihValue =>
      intro b r s h
      cases b <;> simp [fingerprint] at h
      rcases ihKey _ _ _ h with ⟨hkey, h⟩
      rcases ihValue _ r s h with ⟨hvalue, hends⟩
      exact ⟨by rw [same, hkey, hvalue]; rfl, hends⟩
  | func inputs outputs ihIn ihOut =>
      intro b r s h
      cases b <;> simp [fingerprint] at h
      -- The number of parameters comes first, and tells where those of the results begin.
      rcases params_readBack ihIn h.1 h.2 with ⟨hin, h⟩
      simp only [List.cons.injEq, Atom.count.injEq] at h
      rcases params_readBack ihOut h.1 h.2 with ⟨hout, hends⟩
      exact ⟨by rw [same, hin, hout]; rfl, hends⟩

/-- Types are the same if their fingerprints are. -/
theorem same_iff_fingerprint (a b : TypeExpr) :
    a.same b = true ↔ a.fingerprint = b.fingerprint := by
  refine ⟨fingerprint_of_same, fun h => (a.readsBack b [] [] ?_).1⟩
  rw [h]

/-! ## Packages and texts -/

/-- Types that are the same refer to the same packages, in the same order. -/
theorem packages_of_same {a b : TypeExpr} (h : a.same b = true) :
    List.Forall₂ (fun p q => p.same q = true) a.packages b.packages := by
  have hparams {params others : List (Param TypeExpr)}
      (h : Alike (fun a b => List.Forall₂ (fun p q => p.same q = true) a.packages b.packages)
        params others) :
      List.Forall₂ (fun p q => p.same q = true) (paramsPackages params)
        (paramsPackages others) := by
    rw [paramsPackages_eq, paramsPackages_eq]
    induction h with
    | nil => exact .nil
    | cons hp _ ih => exact List.rel_append hp.2.1 ih
  refine sameOn h ?predeclared ?named ?pointer ?slice ?array ?channel ?map ?func
  case predeclared => exact fun _ => .nil
  -- The short names may differ; it is the paths that are compared.
  case named =>
    intro p q name hpath
    cases p <;> cases q <;> simp_all [packages, Package.same]
  case pointer => exact fun _ _ ih => ih
  case slice => exact fun _ _ ih => ih
  case array => exact fun _ _ _ ih => ih
  case channel => exact fun _ _ _ _ ih => ih
  case map => exact fun _ _ _ _ ihKey ihValue => List.rel_append ihKey ihValue
  case func => exact fun _ _ _ _ ihIn ihOut => List.rel_append (hparams ihIn) (hparams ihOut)

section Printing

variable {sameType : TypeExpr → TypeExpr → Prop} {params others : List (Param TypeExpr)}

theorem Alike.map_variadic (h : Alike sameType params others) :
    params.map (·.variadic) = others.map (·.variadic) := by
  induction h with
  | nil => rfl
  | cons hp _ ih => rw [List.map_cons, List.map_cons, hp.2.2, ih]

/-- The rule for variadic marks depends on the marks alone. -/
theorem misplacedVariadic?_of_alike {outputs results : List (Param TypeExpr)}
    (hin : Alike sameType params others) (hout : Alike sameType outputs results) :
    misplacedVariadic? params outputs = misplacedVariadic? others results := by
  -- Where the first mark stands can be told from the list of marks.
  have hfind (params : List (Param TypeExpr)) :
      params.findIdx? (·.variadic) = (params.map (·.variadic)).findIdx? id := by
    rw [List.findIdx?_map, Function.id_comp]
  rw [misplacedVariadic?, misplacedVariadic?, hfind, hfind outputs, hfind others.dropLast,
    hfind results, List.map_dropLast, List.map_dropLast, hin.map_variadic, hout.map_variadic,
    hin.length_eq]

/-- What stands around the results depends on their number and names alone. -/
theorem resultsText_of_alike (h : Alike sameType params others) (texts : List String) :
    resultsText params texts = resultsText others texts := by
  cases h with
  | nil => rfl
  | @cons p q ps qs hp hrest =>
      rcases p with ⟨name, _, _⟩
      rcases q with ⟨_, _, _⟩
      obtain rfl : name = _ := hp.1
      cases hrest <;> cases name <;> rfl

/-- The parentheses around the element of a channel do not depend on names. -/
theorem needsParens_of_same {a b : TypeExpr} (h : a.same b = true) (dir : Direction) :
    needsParens dir a = needsParens dir b := by
  cases dir with
  | recv => rfl
  | send => rfl
  | both =>
      -- Here a channel matters, and two of them are the same only with one direction.
      refine sameOn h ?predeclared ?named ?pointer ?slice ?array ?channel ?map ?func
      case channel => exact fun inner _ _ _ _ => by cases inner <;> rfl
      all_goals intros; rfl

/-- Parameters that are alike are printed alike when their types are. -/
theorem renderParams_of_alike {table : AliasTable}
    (h : Alike (fun a b => a.render table = b.render table) params others) :
    renderParams table params = renderParams table others := by
  induction h with
  | nil => rfl
  | @cons p q _ _ hp _ ih =>
      have htext (text : String) : paramText p text = paramText q text := by
        rw [paramText, paramText, hp.1, hp.2.2]
      rw [renderParams, renderParams, renderParam_eq, renderParam_eq, hp.2.1, ih]
      simp only [htext]

end Printing

/-- Types that are the same are printed alike, or refused alike, and with the same
    reports. -/
theorem render_of_same (table : AliasTable) {a b : TypeExpr} (h : a.same b = true) :
    a.render table = b.render table := by
  refine sameOn h ?predeclared ?named ?pointer ?slice ?array ?channel ?map ?func
  case predeclared => exact fun _ => rfl
  -- The alias is looked up by the path, which is the same.
  case named =>
    intro p q name hpath
    cases p <;> cases q <;> simp_all [render, qualify]
  case pointer => exact fun a b ih => by rw [render, render, ih]
  case slice => exact fun a b ih => by rw [render, render, ih]
  case array => exact fun len a b ih => by rw [render, render, ih]
  case channel =>
    intro dir a b hsame ih
    rw [render, render, ih, needsParens_of_same hsame]
  case map => exact fun k l v w ihKey ihValue => by rw [render, render, ihKey, ihValue]
  -- A misplaced mark is found in both or in neither, and then the texts are put together alike.
  case func =>
    intro is js os ps ihIn ihOut
    rw [render, render, misplacedVariadic?_of_alike ihIn ihOut, renderParams_of_alike ihIn,
      renderParams_of_alike ihOut]
    simp only [resultsText_of_alike ihOut]

/-- Being the same is an equivalence of types, and it is equality for everyone who
    looks at a type: of the data a hash is taken over, of the packages the type
    refers to, and of the text that any table of aliases leads to, or of the error
    in its place. -/
theorem same_indistinguishable :
    Equivalence (fun a b : TypeExpr => a.same b = true) ∧
    (∀ a b : TypeExpr, a.same b = true ↔ a.fingerprint = b.fingerprint) ∧
    ∀ a b : TypeExpr, a.same b = true →
      List.Forall₂ (fun p q => p.same q = true) a.packages b.packages ∧
        ∀ table : AliasTable, a.render table = b.render table := by
  refine ⟨⟨fun a => ?_, fun {a b} h => ?_, fun {a b c} h h' => ?_⟩, same_iff_fingerprint,
    fun a b h => ⟨packages_of_same h, fun table => render_of_same table h⟩⟩
  · exact (same_iff_fingerprint a a).mpr rfl
  · exact (same_iff_fingerprint b a).mpr (fingerprint_of_same h).symm
  · exact (same_iff_fingerprint a c).mpr ((fingerprint_of_same h).trans (fingerprint_of_same h'))

/-- A function of nodes whose package is called by the given name. -/
def transformer (short : String) : TypeExpr :=
  .func [⟨none, .pointer (.named (some ⟨"gopkg.in/yaml.v3", short⟩) "Node"), true⟩]
    [⟨some "found", .map (.predeclared "string") (.named (some ⟨"gopkg.in/yaml.v3", short⟩) "Node"),
      false⟩]

/-- The last segment of a path and the real name of the package make no difference,
    though the references are not equal in all they hold. -/
theorem same_indistinguishable_yaml :
    (transformer "yaml.v3").packages ≠ (transformer "yaml").packages ∧
    (transformer "yaml.v3").same (transformer "yaml") = true ∧
    (transformer "yaml.v3").fingerprint = (transformer "yaml").fingerprint ∧
    List.Forall₂ (fun p q => p.same q = true) (transformer "yaml.v3").packages
      (transformer "yaml").packages ∧
    ∀ table : AliasTable,
      (transformer "yaml.v3").render table = (transformer "yaml").render table := by
  have hne : (transformer "yaml.v3").packages ≠ (transformer "yaml").packages := by decide
  have hsame : (transformer "yaml.v3").same (transformer "yaml") = true := by decide
  rcases same_indistinguishable with ⟨-, hfingerprint, halike⟩
  exact ⟨hne, hsame, (hfingerprint _ _).mp hsame, halike _ _ hsame⟩

end TypeExpr

end Go

end FunctionalOptions
