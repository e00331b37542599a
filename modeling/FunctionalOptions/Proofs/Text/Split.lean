import FunctionalOptions.Proofs.Text.Runs
import FunctionalOptions.Text.Split
import FunctionalOptions.Unicode.WhiteSpace
import Mathlib.Data.List.Basic
import Mathlib.Data.List.TakeWhile

/-!
# Pieces of Texts

Which pieces a text is cut into, and what is left of a piece without the blanks around it.
Both are said here by what stands in the text: a piece stands between two marks, or one
of them and an end of the text, and a trimmed piece stands between blanks.

## Theorems

* `mem_splitAt_iff`: What the pieces of a text are.
* `trim_eq_iff`: What is left of a text.
-/

namespace FunctionalOptions

namespace Text

variable {mark : Char} {text piece : List Char}

/-- A mark in a text divides its pieces. -/
theorem splitAt_append (mark : Char) (text rest : List Char) :
    splitAt mark (text ++ mark :: rest) = splitAt mark text ++ splitAt mark rest := by
  induction text with
  | nil => exact if_pos rfl
  | cons c text ih =>
      rw [List.cons_append, splitAt, splitAt, ih]
      by_cases hc : c = mark
      · rw [if_pos hc, if_pos hc, List.cons_append]
      · rw [if_neg hc, if_neg hc]
        cases hpieces : splitAt mark text with
        | nil => exact absurd hpieces (splitAt_ne_nil mark text)
        | cons piece others => rfl

/-- A text without marks is a piece. -/
theorem splitAt_of_not_mem (h : mark ∉ text) : splitAt mark text = [text] := by
  induction text with
  | nil => rfl
  | cons c text ih =>
      rw [List.mem_cons, not_or] at h
      rw [splitAt, if_neg (Ne.symm h.1), ih h.2]

/-- A piece stands between two marks, or between one of them and an end of the text. -/
theorem mem_splitAt_iff :
    piece ∈ splitAt mark text ↔ mark ∉ piece ∧ ∃ before after,
      text = before ++ (piece ++ after) ∧
        (∀ c ∈ before.getLast?, c = mark) ∧ ∀ c ∈ after.head?, c = mark := by
  constructor
  · -- The text is divided at any of its marks, and both parts are shorter.
    induction hlength : text.length using Nat.strongRecOn generalizing text with
    | ind n ih =>
      intro hpiece
      by_cases hmark : mark ∈ text
      · rcases List.append_of_mem hmark with ⟨text, rest, rfl⟩
        rw [List.length_append, List.length_cons] at hlength
        rw [splitAt_append] at hpiece
        rcases List.mem_append.mp hpiece with hpiece | hpiece
        · rcases ih text.length (by omega) rfl hpiece with
            ⟨hnone, before, after, rfl, hbefore, hafter⟩
          refine ⟨hnone, before, after ++ mark :: rest, by simp, hbefore, ?_⟩
          cases after with
          | nil =>
              rintro c ⟨⟩
              rfl
          | cons a after => exact hafter
        · rcases ih rest.length (by omega) rfl hpiece with
            ⟨hnone, before, after, rfl, hbefore, hafter⟩
          refine ⟨hnone, text ++ mark :: before, after, by simp, ?_, hafter⟩
          cases before with
          | nil =>
              rw [List.getLast?_concat]
              rintro c ⟨⟩
              rfl
          | cons b before =>
              rwa [List.getLast?_append_of_ne_nil _ (List.cons_ne_nil _ _),
                List.getLast?_cons_cons]
      · rw [splitAt_of_not_mem hmark, List.mem_singleton] at hpiece
        rw [hpiece]
        exact ⟨hmark, [], [], by simp, fun c hc => absurd hc (Option.not_mem_none c),
          fun c hc => absurd hc (Option.not_mem_none c)⟩
  · -- What follows the piece is cut off first, then what stands in front of it.
    rintro ⟨hpiece, before, after, rfl, hbefore, hafter⟩
    have hhead : piece ∈ splitAt mark (piece ++ after) := by
      cases after with
      | nil =>
          rw [List.append_nil, splitAt_of_not_mem hpiece]
          exact List.mem_singleton_self piece
      | cons c after =>
          rw [hafter c rfl, splitAt_append, splitAt_of_not_mem hpiece]
          exact List.mem_cons_self
    cases List.eq_nil_or_concat before with
    | inl hnil => rwa [hnil]
    | inr hconcat =>
        rcases hconcat with ⟨before, c, rfl⟩
        rw [List.concat_eq_append] at hbefore ⊢
        rw [hbefore c (by simp), List.append_assoc, List.singleton_append, splitAt_append]
        exact List.mem_append_right _ hhead

end Text

namespace Unicode

/-- What is left of a text stands between blanks, if it begins and ends with something
    else. -/
theorem trim_eq_iff {text core : List Char} (hne : core ≠ [])
    (hhead : ∀ c ∈ core.head?, isWhiteSpace c = false)
    (hlast : ∀ c ∈ core.getLast?, isWhiteSpace c = false) :
    trim text = core ↔ ∃ before after, text = before ++ (core ++ after) ∧
      (∀ c ∈ before, isWhiteSpace c = true) ∧ ∀ c ∈ after, isWhiteSpace c = true := by
  unfold trim
  constructor
  · intro h
    refine ⟨text.takeWhile isWhiteSpace,
      ((text.dropWhile isWhiteSpace).reverse.takeWhile isWhiteSpace).reverse, ?_,
      fun c hc => List.mem_takeWhile_imp hc,
      fun c hc => List.mem_takeWhile_imp (List.mem_reverse.mp hc)⟩
    rw [← h, ← List.reverse_append, List.takeWhile_append_dropWhile, List.reverse_reverse,
      List.takeWhile_append_dropWhile]
  · rintro ⟨before, after, rfl, hbefore, hafter⟩
    have hcore : ∀ c ∈ (core ++ after).head?, isWhiteSpace c = false := by
      rwa [List.head?_append_of_ne_nil _ hne]
    have hend : ∀ c ∈ core.reverse.head?, isWhiteSpace c = false := by
      rwa [List.head?_reverse]
    rw [(Text.takeWhile_append_of_head hbefore hcore).2, List.reverse_append,
      (Text.takeWhile_append_of_head (fun c hc => hafter c (List.mem_reverse.mp hc)) hend).2,
      List.reverse_reverse]

end Unicode

end FunctionalOptions
