import FunctionalOptions.Unicode.Alphabetic
import FunctionalOptions.Unicode.CaseMapping
import FunctionalOptions.Unicode.Uppercase
import Mathlib.Data.List.Basic

/-!
# Where the Case Mappings Lead

What is known of the other form of a character without knowing the character. A
name is derived from another one by changing the case of its first character,
and whoever asks whether the derived name is still a name has to know which
characters the tables can lead to.

They lead to letters, with exceptions that the expansions are to blame for: the
small form of `İ` and the capital forms of some letters take a combining mark,
and a combining mark is no letter. Apart from these, the other form of a letter
consists of letters, and a small form is its own small form. A capital is its own
capital form, without exceptions.

All of it comes from a few tests that go through the tables once. The tests
compare code points by `Nat.ble`, which is the one comparison that evaluates
fast enough for tables of this size.

## Main definitions

* `Ranges.covers`: The ranges hold a whole stretch of code points.
* `CaseRun.landsIn`: The images of a run lie in some ranges.
* `CaseRun.avoids`: No image of a run belongs to another run.
* `Ranges.clearOf`: No range holds a code point of one of some runs.

## Theorems

* `mapCase_cases`: The three ways in which a pair of tables gives a form.
* `toLower_cases`: The small form of a character is the character or a letter
  that is its own small form, but for `İ`.
* `toUpper_cases`: The capital form of a character is an expansion, the
  character, or a letter.
* `toUpper_of_isUppercase`: The capital form of a capital is the capital.
-/

namespace FunctionalOptions

namespace Unicode

/-- One of the ranges holds all code points from the first to the last. -/
def Ranges.covers (ranges : Ranges) (first last : Nat) : Bool :=
  ranges.any fun range => Nat.ble range.1 first && Nat.ble last range.2

/-- What lies in a covered stretch is held. -/
theorem Ranges.holds_of_covers {ranges : Ranges} {first last : Nat}
    (h : ranges.covers first last = true) {c : Char} (hfirst : first ≤ c.toNat)
    (hlast : c.toNat ≤ last) : ranges.holds c = true := by
  unfold covers at h
  rcases List.any_eq_true.mp h with ⟨range, hrange, hbounds⟩
  rw [Bool.and_eq_true, Nat.ble_eq, Nat.ble_eq] at hbounds
  refine (holds_iff _ _).mpr ⟨range, hrange, ?_, ?_⟩
  · omega
  · omega

/-- A code point that lies in a range of letters is the code point of a
    letter. -/
theorem isAlphabetic_ofNat {first last n : Nat} (h : alphabeticRanges.covers first last = true)
    (hfirst : first ≤ n) (hlast : n ≤ last) :
    (Char.ofNat n).toNat = n ∧ isAlphabetic (Char.ofNat n) = true := by
  -- The table keeps clear of the surrogates, which are no characters.
  have htable : alphabeticRanges.all (fun range => Nat.blt range.2 0xD800 ||
      (Nat.blt 0xDFFF range.1 && Nat.blt range.2 0x110000)) = true := by
    decide +kernel
  have hvalid : n.isValidChar := by
    have hcovers := h
    unfold Ranges.covers at hcovers
    rcases List.any_eq_true.mp hcovers with ⟨range, hrange, hbounds⟩
    have hrange := List.all_eq_true.mp htable range hrange
    rw [Bool.and_eq_true, Nat.ble_eq, Nat.ble_eq] at hbounds
    simp only [Bool.or_eq_true, Bool.and_eq_true, Nat.blt_eq] at hrange
    unfold Nat.isValidChar
    omega
  have hcode : (Char.ofNat n).toNat = n := by
    rw [Char.ofNat, dif_pos hvalid]
    rfl
  exact ⟨hcode, Ranges.holds_of_covers h (hcode.symm ▸ hfirst) (hcode.symm ▸ hlast)⟩

namespace CaseRun

variable (run : CaseRun)

theorem holds_iff (n : Nat) :
    run.holds n = true ↔ run.first ≤ n ∧ n ≤ run.last ∧ (n - run.first) % run.stride = 0 := by
  simp only [holds, Bool.and_eq_true, decide_eq_true_eq, beq_iff_eq, and_assoc]

/-- The form of the last code point of the run. -/
def lastImage : Nat :=
  run.shift run.last

/-- The forms of the code points of the run lie in the ranges. Where every other
    code point is left out, those between the forms need not lie there. -/
def landsIn (ranges : Ranges) : Bool :=
  ranges.covers run.image run.lastImage ||
    (List.range (run.last - run.first + 1)).all fun k =>
      k % run.stride != 0 || ranges.covers (run.image + k) (run.image + k)

/-- No form of a code point of the run belongs to the other run: the two lie
    apart, or the forms are the code points that the other run leaves out. -/
def avoids (other : CaseRun) : Bool :=
  Nat.blt run.lastImage other.first || Nat.blt other.last run.image ||
    ((Nat.beq run.stride 2 || Nat.beq run.first run.last) && Nat.beq other.stride 2 &&
      Nat.beq ((run.image + other.first) % 2) 1)

/-- The form of a code point of a run that lands in some ranges lies in one of
    them. -/
theorem exists_covers_shift {run : CaseRun} {ranges : Ranges} {n : Nat}
    (hrun : run.landsIn ranges = true) (hn : run.holds n = true) :
    ∃ first last, ranges.covers first last = true ∧ first ≤ run.shift n ∧ run.shift n ≤ last := by
  rcases (run.holds_iff n).mp hn with ⟨hfirst, hlast, hstride⟩
  rcases Bool.or_eq_true_iff.mp hrun with hall | heach
  · refine ⟨_, _, hall, ?_, ?_⟩
    · unfold shift
      omega
    · unfold lastImage shift
      omega
  · have hk := List.all_eq_true.mp heach (n - run.first) (List.mem_range.mpr (by omega))
    simp only [hstride, bne_self_eq_false, Bool.false_or] at hk
    exact ⟨_, _, hk, Nat.le_refl _, Nat.le_refl _⟩

/-- The form of a code point of a run does not belong to a run that is
    avoided. -/
theorem not_holds_shift {run other : CaseRun} {n : Nat} (h : run.avoids other = true)
    (hn : run.holds n = true) : other.holds (run.shift n) = false := by
  rcases (run.holds_iff n).mp hn with ⟨hfirst, hlast, hstride⟩
  refine Bool.eq_false_iff.mpr fun hother => ?_
  rcases (other.holds_iff _).mp hother with ⟨hfirst', hlast', hstride'⟩
  unfold shift at hfirst' hlast' hstride'
  simp only [avoids, lastImage, shift, Bool.or_eq_true, Bool.and_eq_true, Nat.blt_eq,
    Nat.beq_eq] at h
  rcases h with (hbelow | habove) | ⟨⟨hstep, htwo⟩, hodd⟩
  · omega
  · omega
  · -- Both runs go in steps of two, from code points of different parity.
    rw [htwo] at hstride'
    rcases hstep with hstep | hone
    · rw [hstep] at hstride
      omega
    · omega

end CaseRun

/-! ## Ranges beside runs -/

/-- All of the run lies below the other one. -/
def CaseRun.Below (run other : CaseRun) : Prop :=
  run.first ≤ other.first ∧ run.last < other.first

instance (run other : CaseRun) : Decidable (run.Below other) :=
  inferInstanceAs (Decidable (_ ∧ _))

instance : IsTrans CaseRun CaseRun.Below where
  trans _ _ _ h h' := ⟨Nat.le_trans h.1 h'.1, Nat.lt_of_lt_of_le h.2 h'.1⟩

/-- No range holds a code point of a run, where both lists ascend: each range ends
    before the runs that are left begin, or is a single code point that the first of
    them leaves out. -/
def Ranges.clearOf (runs : List CaseRun) : Ranges → Bool
  | [] => true
  | range :: rest =>
    match runs.dropWhile fun run => Nat.blt run.last range.1 with
    | [] => true
    | run :: more =>
      (Nat.blt range.2 run.first || (Nat.beq run.stride 2 && Nat.beq range.1 range.2 &&
        Nat.beq ((range.1 - run.first) % 2) 1)) && clearOf (run :: more) rest

/-- What lies in ranges that are clear of some runs belongs to none of them. -/
theorem Ranges.not_holds_of_clearOf {runs : List CaseRun} {ranges : Ranges}
    (h : ranges.clearOf runs = true) (hruns : runs.Pairwise CaseRun.Below)
    (hranges : List.Pairwise (fun a b : Nat × Nat => a.1 ≤ b.1) ranges) {c : Char}
    (hc : ranges.holds c = true) {run : CaseRun} (hrun : run ∈ runs) :
    run.holds c.toNat = false := by
  rcases (holds_iff _ _).mp hc with ⟨range, hrange, hlow, hhigh⟩
  refine Bool.eq_false_iff.mpr fun hholds => ?_
  rcases (run.holds_iff _).mp hholds with ⟨hfirst, hlast, hstride⟩
  clear hholds hc
  induction ranges generalizing runs with
  | nil => exact absurd hrange List.not_mem_nil
  | cons next rest ih =>
      rw [List.pairwise_cons] at hranges
      have hnext : next.1 ≤ range.1 := by
        rcases List.mem_cons.mp hrange with rfl | hrest
        · exact Nat.le_refl _
        · exact hranges.1 range hrest
      -- The run reaches up to the range, so it is not dropped.
      have hleft : run ∈ runs.dropWhile fun run => Nat.blt run.last next.1 := by
        rw [← List.takeWhile_append_dropWhile (p := fun run => Nat.blt run.last next.1) (l := runs)]
          at hrun
        rcases List.mem_append.mp hrun with hdropped | hleft
        · have hbelow := List.all_eq_true.mp List.all_takeWhile run hdropped
          rw [Nat.blt_eq] at hbelow
          omega
        · exact hleft
      have hsorted := hruns.sublist (List.dropWhile_sublist fun run => Nat.blt run.last next.1)
      unfold clearOf at h
      cases hdrop : runs.dropWhile fun run => Nat.blt run.last next.1 with
      | nil =>
          rw [hdrop] at hleft
          exact List.not_mem_nil hleft
      | cons first more =>
          rw [hdrop] at hleft hsorted
          simp only [hdrop, Bool.and_eq_true] at h
          rcases List.mem_cons.mp hrange with rfl | hrest
          · -- It is the first one that is left, or lies above that one.
            have hclear := h.1
            simp only [Bool.or_eq_true, Bool.and_eq_true, Nat.blt_eq, Nat.beq_eq] at hclear
            have hreach := List.head?_dropWhile_not (fun run => Nat.blt run.last range.1) runs
            simp only [hdrop, List.head?_cons, ← Bool.not_eq_true, Nat.blt_eq] at hreach
            rcases List.mem_cons.mp hleft with rfl | hmore
            · rcases hclear with hbelow | ⟨⟨htwo, hsingle⟩, hodd⟩
              · omega
              · rw [htwo] at hstride
                omega
            · have hbelow := List.rel_of_pairwise_cons hsorted hmore
              unfold CaseRun.Below at hbelow
              omega
          · exact ih h.2 hsorted hranges.2 hleft hrest

/-! ## Pairs of tables -/

/-- A pair of tables gives a character its expansion, its place in a run, or
    itself. -/
theorem mapCase_cases (runs : List CaseRun) (expansions : List (Nat × List Nat)) (c : Char) :
    (∃ image, (c.toNat, image) ∈ expansions ∧
      mapCase runs expansions c = image.map Char.ofNat) ∨
    (∃ run ∈ runs, run.holds c.toNat = true ∧
      mapCase runs expansions c = [Char.ofNat (run.shift c.toNat)]) ∨
    mapCase runs expansions c = [c] := by
  unfold mapCase
  cases hlookup : expansions.lookup c.toNat with
  | some image =>
      rcases List.lookup_eq_some_iff.mp hlookup with ⟨before, after, rfl, -⟩
      exact Or.inl ⟨image, List.mem_append_right _ List.mem_cons_self, rfl⟩
  | none =>
      cases hfind : runs.find? (·.holds c.toNat) with
      | some run =>
          have hholds := List.find?_some hfind
          exact Or.inr (Or.inl ⟨run, List.mem_of_find?_eq_some hfind, hholds, rfl⟩)
      | none => exact Or.inr (Or.inr rfl)

/-- A character that is in no expansion and in no run is its own form. -/
theorem mapCase_of_outside {runs : List CaseRun} {expansions : List (Nat × List Nat)} {c : Char}
    (hexpansions : ∀ expansion ∈ expansions, expansion.1 ≠ c.toNat)
    (hruns : ∀ run ∈ runs, run.holds c.toNat = false) : mapCase runs expansions c = [c] := by
  rcases mapCase_cases runs expansions c with ⟨image, himage, -⟩ | ⟨run, hrun, hholds, -⟩ | hself
  · exact absurd rfl (hexpansions _ himage)
  · rw [hruns run hrun] at hholds
    exact absurd hholds Bool.false_ne_true
  · exact hself

/-! ## The tables -/

/-- Both mappings lead to letters. No small form has another small form in the runs,
    nor is it the one letter that is expanded. -/
theorem runs_letters :
    (lowerRuns.all (·.landsIn alphabeticRanges) = true ∧
      upperRuns.all (·.landsIn alphabeticRanges) = true) ∧
    lowerRuns.all (fun run => lowerRuns.all run.avoids &&
      (Nat.blt 0x130 run.image || Nat.blt run.lastImage 0x130)) = true := by
  decide +kernel

/-- The small form of `İ` is the plain letter with a combining dot above. -/
theorem toLower_dotted : toLower 'İ' = ['i', '\u0307'] := by
  decide

/-- But for `İ`, the small form of a character is the character itself, or else
    a letter that is its own small form. -/
theorem toLower_cases (c : Char) :
    c = 'İ' ∨ toLower c = [c] ∨ ∃ d, toLower c = [d] ∧ isAlphabetic d = true ∧ toLower d = [d] := by
  rcases mapCase_cases lowerRuns lowerExpansions c with ⟨image, himage, -⟩ |
    ⟨run, hrun, hholds, himage⟩ | hself
  · -- There is one expansion.
    refine Or.inl (Char.toNat_inj.mp ?_)
    exact (Prod.mk.inj (List.mem_singleton.mp himage)).1
  · rcases CaseRun.exists_covers_shift (List.all_eq_true.mp runs_letters.1.1 run hrun) hholds with
      ⟨first, last, hcovers, hfirst, hlast⟩
    rcases isAlphabetic_ofNat hcovers hfirst hlast with ⟨hcode, hletter⟩
    rcases Bool.and_eq_true_iff.mp (List.all_eq_true.mp runs_letters.2 run hrun) with
      ⟨havoids, hdotted⟩
    refine Or.inr (Or.inr ⟨_, himage, hletter, mapCase_of_outside ?_ fun other hother => ?_⟩)
    · intro expansion hexpansion
      rcases (run.holds_iff _).mp hholds with ⟨hlow, hhigh, -⟩
      rw [List.mem_singleton.mp hexpansion, hcode]
      simp only [CaseRun.lastImage, CaseRun.shift, Bool.or_eq_true, Nat.blt_eq] at hdotted ⊢
      omega
    · rw [hcode]
      exact CaseRun.not_holds_shift (List.all_eq_true.mp havoids other hother) hholds
  · exact Or.inr (Or.inl hself)

/-- The capital form of a character is its expansion, the character itself, or a
    letter. -/
theorem toUpper_cases (c : Char) :
    (∃ image, (c.toNat, image) ∈ upperExpansions ∧ toUpper c = image.map Char.ofNat) ∨
      toUpper c = [c] ∨ ∃ d, toUpper c = [d] ∧ isAlphabetic d = true := by
  rcases mapCase_cases upperRuns upperExpansions c with hexpansion | ⟨run, hrun, hholds, himage⟩ |
    hself
  · exact Or.inl hexpansion
  · rcases CaseRun.exists_covers_shift (List.all_eq_true.mp runs_letters.1.2 run hrun) hholds with
      ⟨first, last, hcovers, hfirst, hlast⟩
    exact Or.inr (Or.inr ⟨_, himage, (isAlphabetic_ofNat hcovers hfirst hlast).2⟩)
  · exact Or.inr (Or.inl hself)

/-! ## Capitals -/

/-- The code points that are expanded, each as a run of its own. -/
def expandedRuns : List CaseRun :=
  upperExpansions.map fun expansion => ⟨expansion.1, expansion.1, 1, expansion.1⟩

/-- No capital is in a run or expanded, and all three tables are in ascending order. -/
theorem uppercaseRanges_clear :
    uppercaseRanges.IsChain (fun a b : Nat × Nat => a.1 ≤ b.1) ∧
      (upperRuns.IsChain CaseRun.Below ∧ uppercaseRanges.clearOf upperRuns = true) ∧
      expandedRuns.IsChain CaseRun.Below ∧ uppercaseRanges.clearOf expandedRuns = true := by
  decide +kernel

/-- The capital form of a capital is the capital itself. -/
theorem toUpper_of_isUppercase {c : Char} (h : isUppercase c = true) : toUpper c = [c] := by
  rcases uppercaseRanges_clear with ⟨hascend, ⟨hruns, hclear⟩, hexpanded, hclear'⟩
  simp only [List.isChain_iff_pairwise] at hascend hruns hexpanded
  refine mapCase_of_outside (fun expansion hexpansion heq => ?_) fun run hrun => ?_
  · have hnot := Ranges.not_holds_of_clearOf hclear' hexpanded hascend h
      (List.mem_map_of_mem hexpansion)
    simp [CaseRun.holds, heq] at hnot
  · exact Ranges.not_holds_of_clearOf hclear hruns hascend h hrun

end Unicode

end FunctionalOptions
