/-!
# Runs of Characters

Scanners read words, numerals and blanks as the longest run of characters of one class.
The run that was written is the one that is read if what comes behind it begins with a
character of another class. The other way round, whatever a scanner has read a run of
falls into the run and what stands behind it.

The characters of a text that is put together from literals are known without a look at
its bytes.

## Theorems

* `toList_append_eq`: The characters of a literal and those of the text behind it.
* `takeWhile_append_of_head`: A run of characters ends where it was ended.
* `eq_append_of_dropWhile`: A text is the run that was read with the rest behind it.
* `length_lt_of_dropWhile`: The rest behind a run is shorter than the text.
-/

namespace FunctionalOptions

namespace Text

/-- The characters of a text that is given by its characters. -/
theorem toList_eq {text : String} {chars : List Char} (h : text = String.ofList chars) :
    text.toList = chars := by
  rw [h, String.toList_ofList]

theorem toList_append_eq {text rest : String} {chars more : List Char}
    (h : text = String.ofList chars) (hrest : rest.toList = more) :
    (text ++ rest).toList = chars ++ more := by
  rw [String.toList_append, toList_eq h, hrest]

/-- A run of characters of one class ends in front of what is of another
    class. -/
theorem takeWhile_append_of_head {p : Char → Bool} {run rest : List Char}
    (hrun : ∀ c ∈ run, p c = true) (hrest : ∀ c ∈ rest.head?, p c = false) :
    (run ++ rest).takeWhile p = run ∧ (run ++ rest).dropWhile p = rest := by
  rw [List.takeWhile_append_of_pos hrun, List.dropWhile_append_of_pos hrun]
  cases rest with
  | nil => exact ⟨List.append_nil run, rfl⟩
  | cons c more =>
      have hc : ¬p c = true := by
        rw [hrest c rfl]
        exact Bool.false_ne_true
      rw [List.takeWhile_cons_of_neg hc, List.dropWhile_cons_of_neg hc, List.append_nil]
      exact ⟨rfl, rfl⟩

/-- A text is the run of characters of one class that was read from it, with
    the rest behind it, which begins with what is of another class. -/
theorem eq_append_of_dropWhile {p : Char → Bool} {text rest : List Char} {c : Char}
    (h : text.dropWhile p = c :: rest) :
    text = text.takeWhile p ++ c :: rest ∧ (∀ d ∈ text.takeWhile p, p d = true) ∧
      p c = false := by
  have hsplit : text = text.takeWhile p ++ c :: rest := by
    rw [← h, List.takeWhile_append_dropWhile]
  have hhead : (text.dropWhile p).head (by rw [h]; exact List.cons_ne_nil c rest) = c := by
    simp only [h, List.head_cons]
  have hc := List.head_dropWhile_not p (by rw [h]; exact List.cons_ne_nil c rest)
  exact ⟨hsplit, List.all_eq_true.mp List.all_takeWhile, hhead ▸ hc⟩

/-- What stands behind a character that ends a run is shorter than the text. -/
theorem length_lt_of_dropWhile {p : Char → Bool} {text rest : List Char} {c : Char}
    (h : text.dropWhile p = c :: rest) : rest.length < text.length := by
  have hle := (List.dropWhile_sublist (l := text) p).length_le
  rw [h, List.length_cons] at hle
  exact hle

end Text

end FunctionalOptions
