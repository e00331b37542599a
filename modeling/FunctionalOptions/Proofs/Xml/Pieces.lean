import FunctionalOptions.Proofs.Xml.Filler

/-!
# The Pieces of a Text

A text is read piece by piece. A piece is a tag, or something that is passed
over: a character, a reference, a comment, a document type. The reader finds the
end of each by a search of its own, and every search stops at the first end it
finds. So a piece is the same whatever comes behind it.

Most of this is plain, but not where the reader looks at several characters at
once. A comment inside a document type begins with four of them, and a text that
breaks off after three is taken for something else. That a search never comes to
an end from there is what the lemmas on marks are for: an end has a bracket, and
the words in question have none.

A text is thus either empty, a piece with more behind it, or broken at once, and
that is all that has to be known about the searches.

## Main definitions

* `LeavesDoctype`: What is left of a document type declaration.
* `TagText`: The text of a tag with its brackets.
* `Begins`: What a text begins with.
* `Unbroken`: A text is read without a fault of the markup.

## Theorems

* `afterDeclaration_taken`, `afterInstruction_taken`, `afterReference_taken`,
  `scanTag_found`: What is taken from a text does not depend on what is left.
* `begins`: What a text begins with.
* `Unbroken.markup_append`: What follows a text without a fault is read as if it
  stood alone.
-/

namespace FunctionalOptions

/-! ## Marks -/

namespace Text

/-- A word that a text with a mark begins with is there before the text goes on,
    if it has the mark at its end only. -/
theorem exists_of_append_eq {mark : Char} {word text more rest : List Char}
    (hmark : mark ∈ text) (hword : mark ∉ word.dropLast) (h : text ++ more = word ++ rest) :
    ∃ rest', text = word ++ rest' := by
  -- One of the two is longer: the word, which then holds all of the text, or the text.
  rcases List.append_eq_append_iff.mp h with ⟨missing, hmissing, -⟩ | ⟨rest', htext, -⟩
  · rcases List.eq_nil_or_concat missing with rfl | ⟨front, last, rfl⟩
    · exact ⟨[], by rw [hmissing, List.append_nil, List.append_nil]⟩
    · -- The text would be in the word, without the last character.
      rw [hmissing, List.concat_eq_append, ← List.append_assoc, List.dropLast_concat] at hword
      exact absurd (List.mem_append_left _ hmark) hword
  · exact ⟨rest', htext⟩

/-- So whether a text begins with the word does not depend on how it goes on. -/
theorem not_begins {mark : Char} {text other : List Char} (word : List Char) (hmark : mark ∈ text)
    (hword : mark ∉ word.dropLast) (h : ∀ rest, text ++ other ≠ word ++ rest) (more : List Char) :
    ∀ rest, text ++ more ≠ word ++ rest := by
  intro rest heq
  rcases exists_of_append_eq hmark hword heq with ⟨rest', rfl⟩
  exact h (rest' ++ other) (List.append_assoc _ _ _)

/-- A mark at the beginning of a text is found. -/
theorem after?_mark (mark more : List Char) : after? mark (mark ++ more) = some more := by
  have hprefix : mark.isPrefixOf (mark ++ more) = true :=
    List.isPrefixOf_iff_prefix.mpr (List.prefix_append _ _)
  cases htext : mark ++ more with
  | nil =>
      rcases List.append_eq_nil_iff.mp htext with ⟨rfl, rfl⟩
      rfl
  | cons c rest =>
      rw [htext] at hprefix
      rw [after?, if_pos hprefix, ← htext, List.drop_left]

/-- What is passed over up to the end of a mark does not depend on what is left. -/
theorem after?_taken {mark text after : List Char} (h : after? mark text = some after) :
    ∃ taken, text = taken ++ after ∧ mark <:+ taken ∧
      ∀ more, after? mark (taken ++ more) = some more := by
  induction text with
  | nil =>
      rw [after?] at h
      split at h
      · next hempty =>
        obtain rfl := Option.some.inj h
        obtain rfl := List.isEmpty_iff.mp hempty
        exact ⟨[], rfl, List.suffix_rfl, after?_mark []⟩
      · cases h
  | cons c rest ih =>
      rw [after?] at h
      split at h
      · -- The mark stands here, and it is all that is taken.
        next hfound =>
        rcases List.isPrefixOf_iff_prefix.mp hfound with ⟨behind, hbehind⟩
        rw [← hbehind, List.drop_left] at h
        obtain rfl := Option.some.inj h
        exact ⟨mark, hbehind.symm, List.suffix_rfl, after?_mark mark⟩
      · next hmissing =>
        rcases ih h with ⟨taken, rfl, hmark, htaken⟩
        refine ⟨c :: taken, rfl, hmark.trans (List.suffix_cons c taken), fun more => ?_⟩
        -- The mark is taken later, so what is looked at here is as long as the mark.
        rw [List.cons_append, after?, if_neg, htaken]
        intro hfound
        have hfront : mark <+: c :: taken :=
          List.prefix_of_prefix_length_le (List.isPrefixOf_iff_prefix.mp hfound)
            (List.prefix_append (c :: taken) more) (hmark.length_le.trans (Nat.le_succ _))
        exact hmissing (List.isPrefixOf_iff_prefix.mpr
          (hfront.trans (List.prefix_append (c :: taken) after)))

end Text

namespace Xml

/-! ## What is passed over -/

/-- The declarations of a subset are told apart by words without brackets. -/
theorem subsetPlace_append {text : List Char} (h : '>' ∈ text) (more : List Char) :
    subsetPlace (text ++ more) = subsetPlace text := by
  have hwords : ∀ word ∈ quotedDeclarations, '>' ∉ word.dropLast := by decide
  -- A word that the longer text begins with is there before the bracket, and so in the text itself.
  have hword : ∀ word ∈ quotedDeclarations,
      word.isPrefixOf (text ++ more) = word.isPrefixOf text := by
    intro word hword
    rw [Bool.eq_iff_iff, List.isPrefixOf_iff_prefix, List.isPrefixOf_iff_prefix]
    constructor
    · rintro ⟨rest, hrest⟩
      rcases Text.exists_of_append_eq h (hwords word hword) hrest.symm with ⟨rest', rfl⟩
      exact List.prefix_append _ _
    · exact fun hprefix => hprefix.trans (List.prefix_append _ _)
  have hany : quotedDeclarations.any (·.isPrefixOf (text ++ more)) =
      quotedDeclarations.any (·.isPrefixOf text) := by
    rw [Bool.eq_iff_iff, List.any_eq_true, List.any_eq_true]
    constructor
    · rintro ⟨word, hmem, h⟩
      exact ⟨word, hmem, (hword word hmem).symm.trans h⟩
    · rintro ⟨word, hmem, h⟩
      exact ⟨word, hmem, (hword word hmem).trans h⟩
  rw [subsetPlace, subsetPlace, hany]

/-- What is left of a document type declaration, read from a place in it, is the end
    of the text. What is taken has a bracket, and does not depend on what is left. -/
def LeavesDoctype (place : DoctypePlace) (text after : List Char) : Prop :=
  ∃ taken, text = taken ++ after ∧ '>' ∈ taken ∧
    ∀ more, afterDoctype place (taken ++ more) = some more

/-- A step of the reader is taken as well, if it is the same whatever is left. -/
theorem LeavesDoctype.step {place place' : DoctypePlace} {rest after : List Char}
    (front : List Char) (h : LeavesDoctype place' rest after)
    (hfront : ∀ taken more, '>' ∈ taken → rest = taken ++ after →
      afterDoctype place (front ++ (taken ++ more)) = afterDoctype place' (taken ++ more)) :
    LeavesDoctype place (front ++ rest) after := by
  rcases h with ⟨taken, rfl, hmark, htaken⟩
  refine ⟨front ++ taken, (List.append_assoc _ _ _).symm, List.mem_append_right _ hmark, ?_⟩
  intro more
  rw [List.append_assoc, hfront taken more hmark rfl, htaken]

/-- A bracket that ends the declaration is the last that is taken. -/
theorem LeavesDoctype.last {place : DoctypePlace} {after : List Char}
    (h : ∀ more, afterDoctype place ('>' :: more) = some more) :
    LeavesDoctype place ('>' :: after) after :=
  ⟨['>'], rfl, List.mem_cons_self, h⟩

theorem leavesDoctype_of_eq_some {place : DoctypePlace} {text after : List Char}
    (h : afterDoctype place text = some after) : LeavesDoctype place text after := by
  -- One case for each step of the reader. Those that look ahead also take what they see.
  fun_induction afterDoctype place text with
  | case1 => cases h
  | case2 quote c rest hend =>
      obtain rfl := Option.some.inj h
      obtain ⟨rfl, rfl⟩ := hend
      exact .last fun more => by rw [afterDoctype, if_pos ⟨rfl, rfl⟩]
  | case3 quote c rest hend hopen ih =>
      refine (ih h).step [c] fun taken more _ _ => ?_
      rw [List.singleton_append, afterDoctype, if_neg hend, if_pos hopen]
  | case4 quote c rest hend hopen ih =>
      refine (ih h).step [c] fun taken more _ _ => ?_
      rw [List.singleton_append, afterDoctype, if_neg hend, if_neg hopen]
  | case5 rest ih => exact (ih h).step ['<', '!', '-', '-'] fun _ _ _ _ => rfl
  | case6 rest ih => exact (ih h).step ['<', '?'] fun _ _ _ _ => rfl
  | case7 rest hcomment hinstruction ih =>
      refine (ih h).step [']'] fun taken more _ _ => ?_
      rw [List.singleton_append, afterDoctype, if_pos rfl]
      · exact fun _ hc => absurd hc (by decide)
      · exact fun _ hc => absurd hc (by decide)
  | case8 rest hcomment hinstruction hend ih =>
      refine (ih h).step ['<'] fun taken more hmark hrest => ?_
      subst hrest
      -- The bracket is taken, so no longer word can come about by what is left.
      rw [List.singleton_append, afterDoctype, if_neg hend, if_pos rfl, subsetPlace_append hmark,
        subsetPlace_append hmark]
      · exact fun others _ => Text.not_begins ['!', '-', '-'] hmark (by decide)
          (fun rest => hcomment rest rfl) more others
      · exact fun others _ => Text.not_begins ['?'] hmark (by decide)
          (fun rest => hinstruction rest rfl) more others
  | case9 c rest hcomment hinstruction hend hopen ih =>
      refine (ih h).step [c] fun taken more _ _ => ?_
      rw [List.singleton_append, afterDoctype, if_neg hend, if_neg hopen]
      · exact fun _ hc => absurd hc hopen
      · exact fun _ hc => absurd hc hopen
  | case10 quote c rest hend ih =>
      refine (ih h).step [c] fun taken more _ _ => ?_
      rw [List.singleton_append, afterDoctype, if_pos hend]
  | case11 quote c rest hend ih =>
      refine (ih h).step [c] fun taken more _ _ => ?_
      rw [List.singleton_append, afterDoctype, if_neg hend]
  | case12 c rest ih =>
      refine (ih h).step [c] fun taken more _ _ => ?_
      rw [List.singleton_append, afterDoctype]
  | case13 rest ih => exact (ih h).step ['-', '-', '>'] fun _ _ _ _ => rfl
  | case14 c rest hcomment ih =>
      refine (ih h).step [c] fun taken more hmark hrest => ?_
      subst hrest
      rw [List.singleton_append, afterDoctype]
      exact fun others hc => Text.not_begins ['-', '>'] hmark (by decide)
        (fun rest => hcomment rest hc) more others
  | case15 rest ih => exact (ih h).step ['?', '>'] fun _ _ _ _ => rfl
  | case16 c rest hinstruction ih =>
      refine (ih h).step [c] fun taken more hmark hrest => ?_
      subst hrest
      rw [List.singleton_append, afterDoctype]
      exact fun others hc => Text.not_begins ['>'] hmark (by decide)
        (fun rest => hinstruction rest hc) more others
  | case17 rest =>
      obtain rfl := Option.some.inj h
      exact .last fun more => by rw [afterDoctype, if_pos rfl]
  | case18 c rest hend ih =>
      refine (ih h).step [c] fun taken more _ _ => ?_
      rw [List.singleton_append, afterDoctype, if_neg hend]

/-- The word of a document type declaration is taken with it, and what comes first
    behind the word as well. -/
theorem startsDoctype_append {text : List Char} (hmark : '>' ∈ text) {more : List Char}
    (hword : startsDoctype (text ++ more) = true) (other : List Char) :
    startsDoctype (text ++ other) = true ∧
      (((text ++ other).drop 7).dropWhile Text.isBlank).head? =
        (((text ++ more).drop 7).dropWhile Text.isBlank).head? := by
  rw [startsDoctype, decide_eq_true_eq] at hword
  have hfront : '>' ∉ (text ++ more).take 7 := by
    intro hfront
    have hlower := List.mem_map_of_mem (f := Char.toLower) hfront
    rw [hword] at hlower
    exact absurd hlower (by decide)
  have hlength : 7 ≤ text.length := by
    refine Nat.le_of_not_lt fun hshort => hfront ?_
    rw [List.take_append, List.take_of_length_le (Nat.le_of_lt hshort)]
    exact List.mem_append_left _ hmark
  rw [List.take_append_of_le_length hlength] at hword hfront
  -- The bracket is behind the word, where it ends the blanks at the latest.
  have hbehind : '>' ∈ text.drop 7 := by
    rw [← List.take_append_drop 7 text, List.mem_append] at hmark
    exact hmark.resolve_left hfront
  have hne : (text.drop 7).dropWhile Text.isBlank ≠ [] := by
    rw [Ne, List.dropWhile_eq_nil_iff]
    exact fun hblank => absurd (hblank '>' hbehind) (by decide)
  have hhead (rest : List Char) : (((text ++ rest).drop 7).dropWhile Text.isBlank).head? =
      ((text.drop 7).dropWhile Text.isBlank).head? := by
    rw [List.drop_append_of_le_length hlength, List.dropWhile_append,
      if_neg (by rwa [List.isEmpty_iff]), List.head?_append_of_ne_nil _ hne]
  constructor
  · rw [startsDoctype, List.take_append_of_le_length hlength, hword]
    rfl
  · rw [hhead, hhead]

/-- What is taken for a document type declaration does not depend on what is left. -/
theorem doctype_taken {c : Char} {text after : List Char} (hc : c = 'D' ∨ c = 'd')
    (hafter : afterDoctype (.head none) text = some after)
    (hword : startsDoctype (c :: text) = true)
    (hnamed : ¬(((c :: text).drop 7).dropWhile Text.isBlank).head? = some '>') :
    ∃ taken, text = taken ++ after ∧ ∀ more, afterDeclaration (c :: (taken ++ more)) = .ok more := by
  rcases leavesDoctype_of_eq_some hafter with ⟨taken, rfl, hmark, htaken⟩
  refine ⟨taken, rfl, fun more => ?_⟩
  rcases startsDoctype_append (List.mem_cons_of_mem c hmark) hword more with ⟨hword', hhead⟩
  rw [List.cons_append] at hword' hhead
  rw [afterDeclaration, if_pos hc, htaken]
  · dsimp only
    rw [hword', Bool.not_true, if_neg Bool.false_ne_true, hhead]
    exact if_neg hnamed
  -- The letter is none of the marks that comments and character data begin with.
  · rintro others rfl
    exact absurd hc (by decide)
  · rintro rfl
    exact absurd hc (by decide)
  · rintro rfl
    exact absurd hc (by decide)

/-- A search that reports a fault unless it finds something. -/
theorem elim_eq_ok_iff {found : Option (List Char)} {fault : Fault} {after : List Char} :
    found.elim (Except.error fault) .ok = .ok after ↔ found = some after := by
  cases found <;> simp

/-- What is taken for a declaration or a comment does not depend on what is left. -/
theorem afterDeclaration_taken {text after : List Char} (h : afterDeclaration text = .ok after) :
    ∃ taken, text = taken ++ after ∧ ∀ more, afterDeclaration (taken ++ more) = .ok more := by
  rw [afterDeclaration.eq_def] at h
  split at h
  · next body =>
    -- A comment is taken up to its mark.
    rcases Text.after?_taken (elim_eq_ok_iff.mp h) with ⟨taken, rfl, -, htaken⟩
    exact ⟨'-' :: '-' :: taken, rfl, fun more => elim_eq_ok_iff.mpr (htaken more)⟩
  · cases h
  · next body =>
    split at h
    · next hword =>
      rcases Text.after?_taken (elim_eq_ok_iff.mp h) with ⟨taken, rfl, hmark, htaken⟩
      rcases List.isPrefixOf_iff_prefix.mp hword with ⟨behind, hbehind⟩
      -- The mark of character data ends with a bracket, so the word in front of it is complete.
      have hbracket : '>' ∈ taken := hmark.subset (by decide)
      rcases Text.exists_of_append_eq hbracket (by decide) hbehind.symm with ⟨behind', rfl⟩
      exact ⟨'[' :: _, rfl, fun more => elim_eq_ok_iff.mpr (htaken more)⟩
    · cases h
  · next c body _ _ _ =>
    split at h
    · next hc =>
      split at h
      · cases h
      · next hfound =>
        split at h
        · cases h
        · next hword =>
          split at h
          · cases h
          · next hnamed =>
            obtain rfl := Except.ok.inj h
            rw [Bool.not_eq_true', Bool.not_eq_false] at hword
            rcases doctype_taken hc hfound hword hnamed with ⟨taken, rfl, htaken⟩
            exact ⟨c :: taken, rfl, htaken⟩
    · cases h
  · cases h

/-- What is taken for an instruction does not depend on what is left. -/
theorem afterInstruction_taken {text after : List Char} (h : afterInstruction text = .ok after) :
    ∃ taken, text = taken ++ after ∧ ∀ more, afterInstruction (taken ++ more) = .ok more := by
  rw [afterInstruction] at h
  split at h
  · cases h
  · next hhead =>
    split at h
    · next rest hrest =>
      obtain rfl := Except.ok.inj h
      rcases Text.after?_taken hrest with ⟨taken, rfl, hmark, htaken⟩
      have hne : taken ≠ [] := List.ne_nil_of_mem (hmark.subset List.mem_cons_self)
      rw [List.head?_append_of_ne_nil _ hne] at hhead
      refine ⟨taken, rfl, fun more => ?_⟩
      rw [afterInstruction, List.head?_append_of_ne_nil _ hne, if_neg hhead, htaken]
    · cases h

/-- What is taken for a reference does not depend on what is left. -/
theorem afterReference_taken {text after : List Char} (h : afterReference text = .ok after) :
    ∃ taken, text = taken ++ after ∧ ∀ more, afterReference (taken ++ more) = .ok more := by
  rw [afterReference] at h
  split at h
  · next rest hrest =>
    obtain rfl := Except.ok.inj h
    let inName : Char → Bool := fun c => c != ';' && c != '&' && c != '<'
    have hname : ∀ c ∈ text.takeWhile inName, inName c = true := fun c hc =>
      List.mem_takeWhile_imp hc
    -- What is taken are the characters of the name and the semicolon that ends it.
    refine ⟨text.takeWhile inName ++ [';'], ?_, fun more => ?_⟩
    · rw [List.append_assoc, List.singleton_append, ← hrest, List.takeWhile_append_dropWhile]
    · rw [afterReference, List.append_assoc, List.dropWhile_append_of_pos hname]
      rfl
  · cases h

/-! ## Tags -/

/-- What is taken for a tag is passed over, whatever comes behind it. -/
theorem scanTag_found {quote : Option Char} {text tag after : List Char}
    (h : scanTag quote text = .ok (tag, after)) (rest : List Char) :
    scanTag quote (tag ++ rest) =
      (scanTag none rest).map fun found => (tag ++ found.1, found.2) := by
  induction text generalizing quote tag with
  | nil => cases h
  | cons c text ih =>
      rw [scanTag] at h
      split at h
      · -- The bracket is met outside of all values, so the tag ends here.
        next hend =>
        obtain ⟨rfl, rfl⟩ := Prod.mk.inj (Except.ok.inj h)
        rw [hend.1]
        exact Passes.nil rest
      · next hend =>
        split at h
        · next found after' hfound =>
          obtain ⟨rfl, rfl⟩ := Prod.mk.inj (Except.ok.inj h)
          rw [List.cons_append, scanTag, if_neg hend, ih hfound]
          cases scanTag none rest with
          | error fault => rfl
          | ok found => rfl
        · cases h

/-- The text of a tag, with its brackets. -/
inductive TagText : Markup → List Char → Prop where
  | intro {tag : List Char} : Passes tag → (∀ c ∈ tag.head?, c ≠ '!' ∧ c ≠ '?') →
    TagText (tagMarkup tag) ('<' :: (tag ++ ['>']))

/-- What is taken for a tag is the text of one. -/
theorem TagText.of_scanTag {m : Markup} {tag rest : List Char}
    (h : scanTag none (tag ++ '>' :: rest) = .ok (tag, rest)) (hdeclaration : tag.head? ≠ some '!')
    (hinstruction : tag.head? ≠ some '?') (hm : tagMarkup tag = m) :
    TagText m ('<' :: (tag ++ ['>'])) := by
  rw [← hm]
  refine .intro (scanTag_found h) fun c hc => ⟨?_, ?_⟩
  · rintro rfl
    exact hdeclaration hc
  · rintro rfl
    exact hinstruction hc

/-- A tag is read the same whatever comes behind it. -/
theorem TagText.markup_append {m : Markup} {text : List Char} (h : TagText m text)
    (rest : List Char) : markup (text ++ rest) = m :: markup rest := by
  cases h with
  | @intro tag hpasses hhead =>
      rw [List.cons_append, List.append_assoc, List.singleton_append]
      refine markup_scanTag (hpasses.scanTag_append rest) ?_
      cases tag with
      | nil =>
          rintro _ ⟨⟩
          decide
      | cons c tag => exact hhead

theorem TagText.length_pos {m : Markup} {text : List Char} (h : TagText m text) :
    0 < text.length := by
  cases h
  exact Nat.succ_pos _

/-! ## Faults -/

/-- What has no end is broken. -/
theorem markup_reference_error {text : List Char} {fault : Fault}
    (h : afterReference text = .error fault) : markup ('&' :: text) = [.broken fault] := by
  rw [markup]
  split
  · next hfound => cases h.symm.trans hfound
  · next hfault => rw [Except.error.inj (h.symm.trans hfault)]

theorem markup_declaration_error {text : List Char} {fault : Fault}
    (h : afterDeclaration text = .error fault) : markup ('<' :: '!' :: text) = [.broken fault] := by
  rw [markup]
  split
  · next hfound => cases h.symm.trans hfound
  · next hfault => rw [Except.error.inj (h.symm.trans hfault)]

theorem markup_instruction_error {text : List Char} {fault : Fault}
    (h : afterInstruction text = .error fault) : markup ('<' :: '?' :: text) = [.broken fault] := by
  rw [markup]
  split
  · next hfound => cases h.symm.trans hfound
  · next hfault => rw [Except.error.inj (h.symm.trans hfault)]

theorem markup_scanTag_error {text : List Char} {fault : Fault}
    (h : scanTag none text = .error fault) (hdeclaration : ∀ rest, text ≠ '!' :: rest)
    (hinstruction : ∀ rest, text ≠ '?' :: rest) : markup ('<' :: text) = [.broken fault] := by
  rw [markup]
  · split
    · next hfound => cases h.symm.trans hfound
    · next hfault => rw [Except.error.inj (h.symm.trans hfault)]
  · exact hdeclaration
  · exact hinstruction

/-! ## The pieces -/

/-- What a text begins with. -/
inductive Begins : List Char → Prop where
  | nil : Begins []
  | filler {gap rest : List Char} : Filler gap → gap ≠ [] → Begins (gap ++ rest)
  | tag {m : Markup} {tag rest : List Char} : TagText m tag → Begins (tag ++ rest)
  | broken {text : List Char} {fault : Fault} : markup text = [.broken fault] → Begins text

/-- A text is empty, or begins with a piece, or is broken at once. -/
theorem begins (text : List Char) : Begins text := by
  fun_cases markup text with
  | case1 => exact .nil
  | case2 rest after hafter =>
      rcases afterReference_taken hafter with ⟨taken, rfl, htaken⟩
      exact @Begins.filler ('&' :: taken) after
        (fun more => markup_afterReference (htaken more)) (List.cons_ne_nil _ _)
  | case3 rest fault hfault => exact .broken (markup_reference_error hfault)
  | case4 rest after hafter =>
      rcases afterDeclaration_taken hafter with ⟨taken, rfl, htaken⟩
      exact @Begins.filler ('<' :: '!' :: taken) after
        (fun more => markup_declaration (htaken more)) (List.cons_ne_nil _ _)
  | case5 rest fault hfault => exact .broken (markup_declaration_error hfault)
  | case6 rest after hafter =>
      rcases afterInstruction_taken hafter with ⟨taken, rfl, htaken⟩
      exact @Begins.filler ('<' :: '?' :: taken) after
        (fun more => markup_instruction (htaken more)) (List.cons_ne_nil _ _)
  | case7 rest fault hfault => exact .broken (markup_instruction_error hfault)
  | case8 rest hdeclaration hinstruction tag after hafter =>
      obtain rfl := scanTag_append hafter
      have htag : TagText (tagMarkup tag) ('<' :: (tag ++ ['>'])) := by
        refine .of_scanTag hafter (fun hc => ?_) (fun hc => ?_) rfl
        · rcases List.head?_eq_some_iff.mp hc with ⟨behind, rfl⟩
          exact hdeclaration _ rfl
        · rcases List.head?_eq_some_iff.mp hc with ⟨behind, rfl⟩
          exact hinstruction _ rfl
      have h := @Begins.tag _ _ after htag
      rwa [List.cons_append, List.append_assoc, List.singleton_append] at h
  | case9 rest hdeclaration hinstruction fault hfault =>
      exact .broken (markup_scanTag_error hfault hdeclaration hinstruction)
  | case10 c rest hreference hdeclaration hinstruction hangle =>
      exact @Begins.filler [c] rest (fun more => markup_char hangle hreference more)
        (List.cons_ne_nil _ _)

/-- Induction on the pieces of a text. -/
@[elab_as_elim]
theorem pieces_induction {motive : List Char → Prop} (text : List Char) (nil : motive [])
    (filler : ∀ gap rest, Filler gap → motive rest → motive (gap ++ rest))
    (tag : ∀ m tag rest, TagText m tag → motive rest → motive (tag ++ rest))
    (broken : ∀ text fault, markup text = [.broken fault] → motive text) : motive text := by
  -- By the length of the text, for a piece may be longer than one character.
  induction hlength : text.length using Nat.strongRecOn generalizing text with
  | ind n ih =>
    cases begins text with
    | nil => exact nil
    | @filler gap rest hfiller hne =>
        have hpos := List.length_pos_iff.mpr hne
        rw [List.length_append] at hlength
        exact filler gap rest hfiller (ih rest.length (by omega) rest rfl)
    | @tag m tag' rest htag =>
        have hpos := htag.length_pos
        rw [List.length_append] at hlength
        exact tag m tag' rest htag (ih rest.length (by omega) rest rfl)
    | broken hbroken => exact broken text _ hbroken

/-! ## Texts without faults -/

/-- The text is read without a fault of the markup. -/
def Unbroken (text : List Char) : Prop :=
  ∀ fault, .broken fault ∉ markup text

/-- What follows a text without a fault is read as if it stood alone. -/
theorem Unbroken.markup_append {text : List Char} (h : Unbroken text) (more : List Char) :
    markup (text ++ more) = markup text ++ markup more := by
  induction text using pieces_induction with
  | nil => rw [markup, List.nil_append, List.nil_append]
  | filler gap rest hfiller ih =>
      rw [Unbroken, hfiller] at h
      rw [List.append_assoc, hfiller, hfiller, ih h]
  | tag m tag rest htag ih =>
      rw [Unbroken, htag.markup_append] at h
      rw [List.append_assoc, htag.markup_append, htag.markup_append, List.cons_append, ih]
      exact fun fault hfault => h fault (List.mem_cons_of_mem _ hfault)
  | broken text fault hbroken =>
      rw [Unbroken, hbroken] at h
      exact absurd List.mem_cons_self (h fault)

end Xml

end FunctionalOptions
