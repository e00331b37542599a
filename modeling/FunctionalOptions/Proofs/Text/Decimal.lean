/-!
# Decimal Numerals

What a reader of numerals has to know about the digits that `toString` writes.
Two formats here contain numerals, and both forbid a zero in front of further
digits.

The same fact says where the number behind a name can be cut. Digits can be moved from
the number to the name as long as one is left, and what is moved is a number itself.

## Theorems

* `toDigits_cons`: A numeral is a digit followed by digits, and begins with a
  zero only when it is the numeral of zero.
* `exists_toDigits_of_append`: What a numeral begins with is a numeral.
* `append_toString_cases`: Different numbers make one name only behind names of which
  one is the other with a number.
-/

namespace FunctionalOptions

namespace Text

/-- A numeral is a digit followed by digits, and it begins with a zero only when
    nothing follows. -/
theorem toDigits_cons (n : Nat) : ∃ c rest, Nat.toDigits 10 n = c :: rest ∧ c.isDigit = true ∧
    (∀ d ∈ rest, d.isDigit = true) ∧ (c = '0' → rest = []) := by
  have hdigit : ∀ d ∈ Nat.toDigits 10 n, d.isDigit = true := fun d hd =>
    Nat.isDigit_of_mem_toDigits (by decide) (by decide) hd
  suffices hzero : ∀ c rest, Nat.toDigits 10 n = c :: rest → c = '0' → rest = [] by
    cases h : Nat.toDigits 10 n with
    | nil => exact absurd h Nat.toDigits_ne_nil
    | cons c rest =>
        rw [h] at hdigit
        exact ⟨c, rest, rfl, hdigit c List.mem_cons_self,
          fun d hd => hdigit d (List.mem_cons_of_mem _ hd), hzero c rest h⟩
  clear hdigit
  induction n using Nat.strongRecOn with
  | ind n ih =>
      intro c rest h hc
      by_cases hn : n < 10
      · rw [Nat.toDigits_of_lt_base hn] at h
        exact (List.cons.inj h).2.symm
      · -- The first digit is that of the leading part, which is not zero.
        rw [Nat.toDigits_of_base_le (by decide) (Nat.le_of_not_lt hn)] at h
        cases hlead : Nat.toDigits 10 (n / 10) with
        | nil => exact absurd hlead Nat.toDigits_ne_nil
        | cons d more =>
            rw [hlead, List.cons_append, List.cons.injEq] at h
            have hmore := ih (n / 10) (by omega) d more hlead (h.1.trans hc)
            have hvalue := @Nat.ofDigitChars_ten_toDigits (n / 10)
            rw [hlead, hmore, h.1, hc] at hvalue
            have hnonzero : n / 10 ≠ 0 := by omega
            exact absurd hvalue.symm hnonzero

/-- What a numeral begins with is a numeral. -/
theorem exists_toDigits_of_append {n : Nat} {digits more : List Char}
    (h : Nat.toDigits 10 n = digits ++ more) (hdigits : digits ≠ []) :
    ∃ m, digits = Nat.toDigits 10 m := by
  induction n using Nat.strongRecOn generalizing more with
  | ind n ih =>
      rcases List.eq_nil_or_concat more with rfl | ⟨front, last, rfl⟩
      · exact ⟨n, by rw [h, List.append_nil]⟩
      · rw [List.concat_eq_append, ← List.append_assoc] at h
        by_cases hn : n < 10
        · -- A single digit leaves nothing in front of it.
          rw [Nat.toDigits_of_lt_base hn] at h
          have hlength := congrArg List.length h
          have hpos := List.length_pos_iff.mpr hdigits
          simp only [List.length_append, List.length_singleton] at hlength
          omega
        · rw [Nat.toDigits_of_base_le (by decide) (Nat.le_of_not_lt hn)] at h
          exact ih (n / 10) (by omega) (List.append_inj' h rfl).1

/-- A number can be told from its numeral. -/
theorem toDigits_injective {i j : Nat} (h : Nat.toDigits 10 i = Nat.toDigits 10 j) : i = j := by
  rw [← @Nat.ofDigitChars_ten_toDigits i, h, Nat.ofDigitChars_ten_toDigits]

theorem toList_append_toString (name : String) (n : Nat) :
    (name ++ toString n).toList = name.toList ++ Nat.toDigits 10 n := by
  rw [String.toList_append, Nat.toString_eq_ofList_toDigits, String.toList_ofList]

/-- Numbers behind two names make one name only if they are equal or one of the names is
    the other with a number behind it. -/
theorem append_toString_cases {name other : String} {i j : Nat}
    (h : name ++ toString i = other ++ toString j) :
    i = j ∨ (∃ m : Nat, other = name ++ toString m) ∨ ∃ m : Nat, name = other ++ toString m := by
  have hnumber {left right : String} {more rest : List Char} {n : Nat}
      (hleft : left.toList = right.toList ++ more) (hn : Nat.toDigits 10 n = more ++ rest)
      (hmore : more ≠ []) : ∃ m : Nat, left = right ++ toString m := by
    rcases exists_toDigits_of_append hn hmore with ⟨m, rfl⟩
    exact ⟨m, String.toList_inj.mp (by rw [hleft, toList_append_toString])⟩
  have hchars := congrArg String.toList h
  rw [toList_append_toString, toList_append_toString] at hchars
  -- One of the names reaches into the number of the other, or neither does.
  rcases List.append_eq_append_iff.mp hchars with ⟨more, hmore, heq⟩ | ⟨more, hmore, heq⟩
  · by_cases hnil : more = []
    · rw [hnil, List.nil_append] at heq
      exact Or.inl (toDigits_injective heq)
    · exact Or.inr (Or.inl (hnumber hmore heq hnil))
  · by_cases hnil : more = []
    · rw [hnil, List.nil_append] at heq
      exact Or.inl (toDigits_injective heq.symm)
    · exact Or.inr (Or.inr (hnumber hmore heq hnil))

end Text

end FunctionalOptions
