import FunctionalOptions.Proofs.Fallible
import FunctionalOptions.Proofs.Types.Written
import FunctionalOptions.Record.Validation

/-!
# Valid Types

Validation, read as a rule about every part of a type. The check is a recursion
with counters and an order of its own, of which only the outcome matters to
whoever relies on it: the names everywhere in the type can stand in source text,
and variadic marks stand where they may.

The printer has its own test for the marks, and puts it in other words. That a
valid type can be printed is the statement that both tests are the same rule.

## Main definitions

* `ValidIn`: The rule for one part of a type.
* `TypeExpr.Valid`: The rule holds everywhere in a type.

## Theorems

* `TypeExpr.validate_eq_ok_iff`: Validation accepts exactly the valid types.
* `TypeExpr.Valid.wellMarked`: The marks of a valid type fit.
* `TypeExpr.Valid.package`: The short name of every package that a valid type
  refers to is an identifier.
* `Record.validate_eq_ok_iff`: Validation accepts exactly the records whose
  names are identifiers, with distinct fields of valid types.
-/

namespace FunctionalOptions

namespace Go

/-- The rules for a type, those for its parts aside. -/
def ValidIn : TypeExpr → Prop
  | .predeclared name => name ≠ ""
  | .named package name => isIdentifier name = true ∧ ∀ p ∈ package, isIdentifier p.name = true
  | .func inputs outputs => MarksFit inputs outputs
  | _ => True

/-- The rules hold everywhere in a type. -/
def TypeExpr.Valid (n : TypeExpr) : Prop :=
  n.Everywhere ValidIn

/-- A package is valid when its short name is an identifier. -/
theorem Package.validate_eq_ok_iff (package : Package) :
    package.validate = .ok () ↔ isIdentifier package.name = true := by
  unfold Package.validate
  by_cases h : isIdentifier package.name = true
  · simp only [h, if_true]
  · simp only [h, Bool.false_eq_true, if_false, reduceCtorEq]

/-- A declared name is valid when it is an identifier, and so is the short name
    of its package. -/
theorem validateNamed_eq_ok_iff (package : Option Package) (name : String) :
    validateNamed package name = .ok () ↔
      isIdentifier name = true ∧ ∀ p ∈ package, isIdentifier p.name = true := by
  unfold validateNamed
  by_cases h : isIdentifier name = true
  · cases package with
    | none => simp [h]
    | some package =>
        simp only [h, Bool.not_true, Bool.false_eq_true, if_false, Except.mapError_eq_ok_iff,
          Package.validate_eq_ok_iff, Option.mem_some_iff, forall_eq', true_and]
  · simp [h]

namespace TypeExpr

/-- A parameter is valid when its type is. -/
theorem validateParam_eq (p : Param TypeExpr) : validateParam p = p.type.validate := by
  cases p
  rw [validateParam]

/-- Parameters are valid when their types are and no mark stands before the
    last of them, whatever position is counted from. -/
theorem validateInputs_eq_ok_iff (position : Nat) (params : List (Param TypeExpr)) :
    validateInputs position params = .ok () ↔
      (∀ p ∈ params.dropLast, p.variadic = false) ∧
        ∀ p ∈ params, p.type.validate = .ok () := by
  induction params generalizing position with
  | nil => simp [validateInputs]
  | cons p ps ih =>
      rw [validateInputs, validateParam_eq]
      -- Whether this one is the last decides about its mark.
      cases ps with
      | nil => simp [validateInputs, Except.check_bind_eq_ok_iff]
      | cons q qs =>
          by_cases hmark : p.variadic = true
          · simp [hmark]
          · have htypes : (∀ r ∈ p :: q :: qs, r.type.validate = .ok ()) ↔
                p.type.validate = .ok () ∧ ∀ r ∈ q :: qs, r.type.validate = .ok () :=
              List.forall_mem_cons
            have hmarks : (∀ r ∈ (p :: q :: qs).dropLast, r.variadic = false) ↔
                ∀ r ∈ (q :: qs).dropLast, r.variadic = false := by
              rw [List.dropLast_cons_cons, List.forall_mem_cons,
                and_iff_right (Bool.eq_false_iff.mpr hmark)]
            rw [if_neg (by simp [hmark]), Except.check_bind_eq_ok_iff, ih, htypes, hmarks]
            exact and_left_comm

/-- Results are valid when their types are. -/
theorem validateOutputs_eq_ok_iff (params : List (Param TypeExpr)) :
    validateOutputs params = .ok () ↔ ∀ p ∈ params, p.type.validate = .ok () := by
  induction params with
  | nil => simp [validateOutputs]
  | cons p ps ih =>
      rw [validateOutputs, validateParam_eq, Except.check_bind_eq_ok_iff, List.forall_mem_cons, ih]

/-- A signature is valid when its marks fit and its types are valid. -/
theorem validate_func_eq_ok_iff (inputs outputs : List (Param TypeExpr)) :
    (func inputs outputs).validate = .ok () ↔ MarksFit inputs outputs ∧
      (∀ p ∈ inputs, p.type.validate = .ok ()) ∧ ∀ p ∈ outputs, p.type.validate = .ok () := by
  have hmarks : (∀ p ∈ outputs, p.variadic = false) ↔ ¬outputs.any (·.variadic) = true := by
    simp only [List.any_eq_true, not_exists, not_and, Bool.not_eq_true]
  rw [validate, Except.check_bind_eq_ok_iff, validateInputs_eq_ok_iff, MarksFit, hmarks,
    ← validateOutputs_eq_ok_iff outputs]
  -- Marks of results are looked at once the parameters have been found valid.
  by_cases h : outputs.any (·.variadic) = true
  · rw [if_pos h]
    exact ⟨(fun ⟨_, hthrow⟩ => nomatch hthrow), fun ⟨⟨_, hnot⟩, _⟩ => absurd h hnot⟩
  · rw [if_neg h, and_iff_left h]
    exact and_assoc

/-- Validation accepts exactly the types in which the rules hold everywhere. -/
theorem validate_eq_ok_iff (n : TypeExpr) : n.validate = .ok () ↔ n.Valid := by
  unfold Valid
  induction n using inductOn with
  | predeclared name =>
      rw [everywhere_predeclared, validate]
      by_cases h : name = ""
      · simp [h, ValidIn]
      · simp [h, ValidIn]
  | named package name =>
      rw [everywhere_named, validate, validateNamed_eq_ok_iff]
      rfl
  | pointer elem ih =>
      rw [everywhere_pointer, validate, ih]
      exact Iff.of_eq (true_and _).symm
  | slice elem ih =>
      rw [everywhere_slice, validate, ih]
      exact Iff.of_eq (true_and _).symm
  | array len elem ih =>
      rw [everywhere_array, validate, ih]
      exact Iff.of_eq (true_and _).symm
  | channel dir elem ih =>
      rw [everywhere_channel, validate, ih]
      exact Iff.of_eq (true_and _).symm
  | map key value ihKey ihValue =>
      rw [everywhere_map, validate, Except.check_bind_eq_ok_iff, ihKey, ihValue]
      exact Iff.of_eq (true_and _).symm
  | func inputs outputs ihIn ihOut =>
      rw [everywhere_func, validate_func_eq_ok_iff]
      exact and_congr_right fun _ =>
        and_congr (forall₂_congr ihIn) (forall₂_congr ihOut)

variable {n : TypeExpr}

/-- The marks of a valid type fit. -/
theorem Valid.wellMarked (h : n.Valid) : n.WellMarked := by
  intro t ht
  have hrule := h t ht
  cases t with
  | func inputs outputs => exact hrule
  | _ => trivial

/-- The short name of every package that a valid type refers to is an
    identifier. -/
theorem Valid.package (h : n.Valid) {package : Package} (hpackage : package ∈ n.packages) :
    isIdentifier package.name = true := by
  rcases (mem_packages_iff n package).mp hpackage with ⟨name, hwithin⟩
  exact (h _ hwithin).2 package rfl

end TypeExpr

end Go

namespace Record

/-- No two fields of a list share a name, the blank name aside. -/
def Distinct (fields : List Field) : Prop :=
  fields.Pairwise fun f g => f.name ≠ Go.blank → f.name ≠ g.name

/-- Fields are valid when their names are identifiers and their types are
    valid, no two of them share a name, and none has a name that is taken. -/
theorem validateFields_eq_ok_iff (record : String) (taken : List String) (fields : List Field) :
    validateFields record taken fields = .ok () ↔
      (∀ f ∈ fields, Go.isIdentifier f.name = true ∧ f.type.Valid) ∧ Distinct fields ∧
        ∀ f ∈ fields, f.name ≠ Go.blank → f.name ∉ taken := by
  induction fields generalizing taken with
  | nil => simp [validateFields, Distinct]
  | cons f fs ih =>
      rw [validateFields]
      by_cases hname : Go.isIdentifier f.name = true
      · by_cases htaken : f.name ≠ Go.blank ∧ f.name ∈ taken
        · have hcheck : (f.name != Go.blank && taken.contains f.name) = true := by
            simpa using htaken
          rw [if_neg (by simp [hname]), if_pos hcheck]
          refine ⟨(fun h => nomatch h), fun ⟨_, _, hfree⟩ => ?_⟩
          exact absurd htaken.2 (hfree f List.mem_cons_self htaken.1)
        · have hcheck : ¬(f.name != Go.blank && taken.contains f.name) = true := by
            simpa using htaken
          -- A later field may not have the name of this one, which has been
          -- taken by the time that the later one is looked at.
          have hlater : (∀ g ∈ fs, g.name ≠ Go.blank → g.name ∉ f.name :: taken) ↔
              (∀ g ∈ fs, f.name ≠ Go.blank → f.name ≠ g.name) ∧
                ∀ g ∈ fs, g.name ≠ Go.blank → g.name ∉ taken := by
            simp only [List.mem_cons, not_or]
            constructor
            · refine fun h => ⟨fun g hg hblank heq => ?_, fun g hg hblank => (h g hg hblank).2⟩
              exact (h g hg (heq ▸ hblank)).1 heq.symm
            · refine fun ⟨hne, hfree⟩ g hg hblank => ⟨fun heq => ?_, hfree g hg hblank⟩
              exact hne g hg (heq ▸ hblank) heq.symm
          have hhere : f.name ≠ Go.blank → f.name ∉ taken := fun hblank hmem =>
            htaken ⟨hblank, hmem⟩
          rw [if_neg (by simp [hname]), if_neg hcheck, Except.check_bind_eq_ok_iff,
            Except.mapError_eq_ok_iff, Go.TypeExpr.validate_eq_ok_iff, ih, hlater]
          simp only [Distinct, List.pairwise_cons, List.forall_mem_cons, hname, true_and]
          constructor
          · rintro ⟨htype, hfields, hdistinct, hne, hfree⟩
            exact ⟨⟨htype, hfields⟩, ⟨hne, hdistinct⟩, hhere, hfree⟩
          · rintro ⟨⟨htype, hfields⟩, ⟨hne, hdistinct⟩, -, hfree⟩
            exact ⟨htype, hfields, hdistinct, hne, hfree⟩
      · rw [if_pos (by simp [hname])]
        refine ⟨(fun h => nomatch h), fun ⟨hfields, _⟩ => ?_⟩
        exact absurd (hfields f List.mem_cons_self).1 hname

/-- Validation accepts exactly the records whose names are identifiers, with
    distinct fields of valid types. -/
theorem validate_eq_ok_iff (record : Record) :
    record.validate = .ok () ↔ Go.isIdentifier record.name = true ∧
      (∀ f ∈ record.fields, Go.isIdentifier f.name = true ∧ f.type.Valid) ∧
        Distinct record.fields := by
  unfold validate
  by_cases hname : Go.isIdentifier record.name = true
  · rw [if_neg (by simp [hname]), validateFields_eq_ok_iff]
    simp [hname]
  · simp [hname]

end Record

end FunctionalOptions
