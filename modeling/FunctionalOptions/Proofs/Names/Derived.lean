import FunctionalOptions.Proofs.Grammar.Token
import FunctionalOptions.Proofs.Names.CaseMapping

/-!
# Derived Names

When a name that is made of another one is still a name. Three of them are made
for every record: the receiver is the lowered first character of its name, a
parameter is a field name with the first character lowered and perhaps a number
behind it, and a function is a field name with the first character raised behind
a common beginning.

The characters behind the first stay as they are, so it is the new first ones
that matter. They are name characters unless the change of case brings a
combining mark with it, which happens to `İ` when it is lowered and to the
letters of a short list when they are raised.

A name made by lowering begins with a character that is its own small form. So
lowering it again does nothing, whatever stands behind.

## Main definitions

* `markedCapitals`: The letters whose capital form takes a combining mark.

## Theorems

* `isIdentifier_lowerInitial_iff`, `isIdentifier_lowerFirst_append_iff`,
  `isIdentifier_append_title_iff`: When the derived names are names.
* `lowerInitial_eq_blank_iff`, `lowerFirst_append_ne_blank`: When they are blank.
* `lowerFirst_lowerFirst_append`: A lowered name is its own lowered form.
* `length_lowerInitial_le`: A lowered first character takes two at most.
-/

namespace FunctionalOptions

namespace Go

open Unicode (toLower toUpper isAlphabetic)

/-- The letters whose capital form takes a combining mark, because there is no
    capital letter of the kind. -/
def markedCapitals : List Char := [
  '\u01F0', '\u0390', '\u03B0', '\u1E96', '\u1E97', '\u1E98', '\u1E99', '\u1F50', '\u1F52',
  '\u1F54', '\u1F56', '\u1FB6', '\u1FB7', '\u1FC6', '\u1FC7', '\u1FD2', '\u1FD3', '\u1FD6',
  '\u1FD7', '\u1FE2', '\u1FE3', '\u1FE4', '\u1FE6', '\u1FE7', '\u1FF6', '\u1FF7']

/-! ## Characters -/

theorem isNameStart_of_isAlphabetic {c : Char} (h : isAlphabetic c = true) :
    isNameStart c = true := by
  rw [isNameStart, h, Bool.true_or]

theorem isNamePart_of_isAlphabetic {c : Char} (h : isAlphabetic c = true) :
    isNamePart c = true := by
  rw [isNamePart, h, Bool.true_or, Bool.true_or]

/-- What may begin a name may also go on with it. -/
theorem isNamePart_of_isNameStart {c : Char} (h : isNameStart c = true) :
    isNamePart c = true := by
  rcases Bool.or_eq_true_iff.mp h with hletter | hline
  · exact isNamePart_of_isAlphabetic hletter
  · rw [isNamePart, hline, Bool.or_true]

/-- A small form begins with a character that is its own small form, and goes on
    for one more character at most. -/
theorem toLower_head (c : Char) :
    ∃ d more, toLower c = d :: more ∧ toLower d = [d] ∧ more.length ≤ 1 := by
  rcases Unicode.toLower_cases c with rfl | hself | ⟨d, hd, -, hfinal⟩
  · -- Of the two characters of its form the first is a plain small letter.
    have hplain : toLower 'i' = ['i'] := by decide
    exact ⟨_, _, Unicode.toLower_dotted, hplain, Nat.le_refl 1⟩
  · exact ⟨c, [], hself, hself, Nat.zero_le 1⟩
  · exact ⟨d, [], hd, hfinal, Nat.zero_le 1⟩

/-- But for `İ`, what begins a name is lowered to one character that may begin a
    name, and this is the underscore for the underscore alone. -/
theorem toLower_isNameStart {c : Char} (hc : isNameStart c = true) (hdotted : c ≠ 'İ') :
    ∃ d, toLower c = [d] ∧ isNameStart d = true ∧ (d = '_' → c = '_') := by
  rcases Unicode.toLower_cases c with h | hself | ⟨d, hd, hletter, -⟩
  · exact absurd h hdotted
  · exact ⟨c, hself, hc, id⟩
  · refine ⟨d, hd, isNameStart_of_isAlphabetic hletter, ?_⟩
    -- The underscore is no letter, so no letter is lowered to it.
    rintro rfl
    rw [Unicode.isAlphabetic_ascii (by decide)] at hletter
    exact absurd hletter (by decide)

/-- The capital form of what begins a name consists of name characters unless it
    takes a combining mark. -/
theorem isNamePart_toUpper_iff {c : Char} (hc : isNameStart c = true) :
    (∀ d ∈ toUpper c, isNamePart d = true) ↔ c ∉ markedCapitals := by
  -- All forms of more than one character are in a table, so both directions are looked up in it.
  have hmarked : markedCapitals.all (fun c => !(toUpper c).all isNamePart) = true := by
    decide +kernel
  have hothers : Unicode.upperExpansions.all (fun expansion =>
      markedCapitals.contains (Char.ofNat expansion.1) ||
        expansion.2.all fun n => isNamePart (Char.ofNat n)) = true := by
    decide +kernel
  constructor
  · intro h hmem
    have hnot := List.all_eq_true.mp hmarked c hmem
    rw [List.all_eq_true.mpr h] at hnot
    exact absurd hnot Bool.false_ne_true
  · intro hfree d hd
    rcases Unicode.toUpper_cases c with ⟨image, himage, hupper⟩ | hself | ⟨e, he, hletter⟩
    · rw [hupper] at hd
      rcases List.mem_map.mp hd with ⟨n, hn, rfl⟩
      rcases Bool.or_eq_true_iff.mp (List.all_eq_true.mp hothers _ himage) with hmem | hparts
      · rw [Char.ofNat_toNat, List.contains_iff_mem] at hmem
        exact absurd hmem hfree
      · exact List.all_eq_true.mp hparts n hn
    · rw [hself] at hd
      rw [List.mem_singleton.mp hd]
      exact isNamePart_of_isNameStart hc
    · rw [he] at hd
      rw [List.mem_singleton.mp hd]
      exact isNamePart_of_isAlphabetic hletter

/-! ## Texts -/

variable {name : String} {c : Char} {rest : List Char}

theorem isIdentifier_of_toList (h : name.toList = c :: rest) :
    isIdentifier name = (isNameStart c && rest.all isNamePart) := by
  unfold isIdentifier
  rw [h]

theorem toList_lowerFirst (h : name.toList = c :: rest) :
    (lowerFirst name).toList = toLower c ++ rest := by
  unfold lowerFirst
  rw [h]
  exact String.toList_ofList

theorem toList_title (h : name.toList = c :: rest) :
    (title name).toList = toUpper c ++ rest := by
  unfold title
  rw [h]
  exact String.toList_ofList

theorem toList_lowerInitial (h : name.toList = c :: rest) :
    (lowerInitial name).toList = toLower c := by
  unfold lowerInitial
  rw [h]
  exact String.toList_ofList

/-- A text that begins with the small form of what begins a name, and goes on with
    name characters, is a name unless the small form is that of `İ`. -/
theorem isIdentifier_toLower_iff (h : name.toList = toLower c ++ rest)
    (hc : isNameStart c = true) (hrest : ∀ d ∈ rest, isNamePart d = true) :
    isIdentifier name = true ↔ c ≠ 'İ' := by
  by_cases hdotted : c = 'İ'
  · rw [hdotted, Unicode.toLower_dotted] at h
    have hmark : isNamePart '\u0307' = false := by decide +kernel
    rw [isIdentifier_of_toList h]
    simp [hdotted, hmark]
  · rcases toLower_isNameStart hc hdotted with ⟨d, hd, hstart, -⟩
    rw [hd] at h
    rw [isIdentifier_of_toList h, hstart, Bool.true_and, List.all_eq_true]
    exact ⟨fun _ => hdotted, fun _ => hrest⟩

/-- The lowered first character of a name is a name unless it is that of `İ`. -/
theorem isIdentifier_lowerInitial_iff (h : isIdentifier name = true) :
    isIdentifier (lowerInitial name) = true ↔ name.toList.head? ≠ some 'İ' := by
  rcases word_of_isIdentifier h with ⟨c, rest, hname, hc, -⟩
  have hinitial : (lowerInitial name).toList = toLower c ++ [] := by
    rw [toList_lowerInitial hname, List.append_nil]
  rw [isIdentifier_toLower_iff hinitial hc fun _ hd => absurd hd List.not_mem_nil, hname,
    List.head?_cons, Ne, Ne, Option.some.injEq]

/-- The lowered first character of a name is blank when the name begins with the
    underscore. -/
theorem lowerInitial_eq_blank_iff (h : isIdentifier name = true) :
    lowerInitial name = "_" ↔ name.toList.head? = some '_' := by
  rcases word_of_isIdentifier h with ⟨c, rest, hname, hc, -⟩
  rw [← String.toList_inj, toList_lowerInitial hname, hname, List.head?_cons, Option.some.injEq]
  constructor
  · intro hblank
    -- Only for one letter does the form have two characters, and then it is not blank.
    by_cases hdotted : c = 'İ'
    · rw [hdotted, Unicode.toLower_dotted] at hblank
      exact absurd hblank (by decide)
    · rcases toLower_isNameStart hc hdotted with ⟨d, hd, -, hline⟩
      rw [hd] at hblank
      exact hline (List.cons.inj hblank).1
  · rintro rfl
    decide

/-- A lowered first character takes two characters at most. -/
theorem length_lowerInitial_le (name : String) : (lowerInitial name).toList.length ≤ 2 := by
  cases hname : name.toList with
  | nil =>
      unfold lowerInitial
      rw [hname]
      exact Nat.zero_le 2
  | cons c rest =>
      rcases toLower_head c with ⟨d, more, hlower, -, hmore⟩
      rw [toList_lowerInitial hname, hlower, List.length_cons]
      omega

variable (suffix : String)

/-- A name with its first character lowered and name characters behind it is a
    name unless it began with `İ`. -/
theorem isIdentifier_lowerFirst_append_iff (h : isIdentifier name = true)
    (hsuffix : ∀ d ∈ suffix.toList, isNamePart d = true) :
    isIdentifier (lowerFirst name ++ suffix) = true ↔ name.toList.head? ≠ some 'İ' := by
  rcases word_of_isIdentifier h with ⟨c, rest, hname, hc, hparts⟩
  have hchars : (lowerFirst name ++ suffix).toList = toLower c ++ (rest ++ suffix.toList) := by
    rw [String.toList_append, toList_lowerFirst hname, List.append_assoc]
  have hrest : ∀ d ∈ rest ++ suffix.toList, isNamePart d = true := by
    intro d hd
    rcases List.mem_append.mp hd with hd | hd
    · exact hparts d (List.mem_cons_of_mem _ hd)
    · exact hsuffix d hd
  rw [isIdentifier_toLower_iff hchars hc hrest, hname, List.head?_cons, Ne, Ne, Option.some.injEq]

/-- A name that is not blank does not become so when its first character is
    lowered, whatever is put behind it. -/
theorem lowerFirst_append_ne_blank (h : isIdentifier name = true) (hblank : name ≠ "_") :
    lowerFirst name ++ suffix ≠ "_" := by
  rcases word_of_isIdentifier h with ⟨c, rest, hname, hc, -⟩
  intro heq
  have hchars : toLower c ++ (rest ++ suffix.toList) = ['_'] := by
    rw [← List.append_assoc, ← toList_lowerFirst hname, ← String.toList_append, heq]
    rfl
  by_cases hdotted : c = 'İ'
  · rw [hdotted, Unicode.toLower_dotted] at hchars
    exact absurd (List.cons.inj hchars).1 (by decide)
  · rcases toLower_isNameStart hc hdotted with ⟨d, hd, -, hline⟩
    rw [hd, List.singleton_append, List.cons.injEq, List.append_eq_nil_iff] at hchars
    -- Nothing stands behind the first character, so it is the whole name.
    rw [hline hchars.1, hchars.2.1] at hname
    exact hblank (String.toList_inj.mp hname)

/-- A lowered name is its own lowered form, whatever is put behind it. -/
theorem lowerFirst_lowerFirst_append (h : isIdentifier name = true) :
    lowerFirst (lowerFirst name ++ suffix) = lowerFirst name ++ suffix := by
  rcases word_of_isIdentifier h with ⟨c, rest, hname, -, -⟩
  rcases toLower_head c with ⟨d, more, hlower, hfinal, -⟩
  have hchars : (lowerFirst name ++ suffix).toList = d :: (more ++ rest ++ suffix.toList) := by
    rw [String.toList_append, toList_lowerFirst hname, hlower]
    rfl
  -- Lowering again touches only the first character, which is final.
  refine String.toList_inj.mp ?_
  rw [toList_lowerFirst hchars, hfinal, hchars]
  rfl

/-- A name with its first character raised is a name behind another one unless
    its new first characters hold a combining mark. -/
theorem isIdentifier_append_title_iff {leading : String} (hleading : isIdentifier leading = true)
    (h : isIdentifier name = true) :
    isIdentifier (leading ++ title name) = true ↔
      ∀ c ∈ name.toList.head?, c ∉ markedCapitals := by
  rcases word_of_isIdentifier hleading with ⟨first, more, hfirst, hstart, hmore⟩
  rcases word_of_isIdentifier h with ⟨c, rest, hname, hc, hrest⟩
  have hchars : (leading ++ title name).toList = first :: (more ++ (toUpper c ++ rest)) := by
    rw [String.toList_append, hfirst, toList_title hname, List.cons_append]
  -- All but the raised character is known to be fine.
  rw [isIdentifier_of_toList hchars, hstart, Bool.true_and, List.all_append, List.all_append,
    List.all_eq_true.mpr fun d hd => hmore d (List.mem_cons_of_mem _ hd),
    List.all_eq_true.mpr fun d hd => hrest d (List.mem_cons_of_mem _ hd), Bool.true_and,
    Bool.and_true, List.all_eq_true, isNamePart_toUpper_iff hc, hname, List.head?_cons]
  simp

end Go

end FunctionalOptions
