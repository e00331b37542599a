import FunctionalOptions.Proofs.Fallible
import FunctionalOptions.Proofs.Xml.Attributes

/-!
# Reading Written Tags

The attributes of a written tag are read from its text. The search for them is
lenient and goes on in one way or another whatever it finds, so what has to be
seen is that it never has to be lenient here: every key is followed by an equals
sign, every value ends at its own quote, and no key is taken.

The attributes come out in the order of the text. Whoever wrote the tag had
another order in mind, perhaps, and since no key comes twice, asking for a value
by its key does not tell the two apart.

## Main definitions

* `Tag.Has`: A tag has a name and attributes, whatever their order.

## Theorems

* `WrittenValue.expand_eq`: A value is expanded from its text.
* `scanAttributes_cons`: A written attribute is found with the text of its
  value.
* `WrittenAttributes.expandValues_eq`: The attributes are found in the order of
  the text.
* `WrittenTag.has`: A tag has what it was written for.
-/

namespace FunctionalOptions

namespace Xml

/-! ## Values -/

/-- A reference by a predefined name resolves to the character of that name. -/
theorem resolve_named {c : Char} {name : String} (h : (c, name) ∈ namedChars) (place : Nat) :
    resolve place name.toList = .ok c := by
  simp only [namedChars, List.mem_cons, Prod.mk.injEq, List.not_mem_nil, or_false] at h
  rcases h with ⟨rfl, rfl⟩ | ⟨rfl, rfl⟩ | ⟨rfl, rfl⟩ | ⟨rfl, rfl⟩ | ⟨rfl, rfl⟩ <;> rfl

/-- The characters of a predefined name belong to a reference and enclose
    nothing. -/
theorem named_chars {c : Char} {name : String} (h : (c, name) ∈ namedChars) :
    ∀ d ∈ name.toList, inReference d = true ∧ isQuote d = false := by
  have hall : namedChars.all (fun entry => entry.2.toList.all fun d =>
      inReference d && !isQuote d) = true := by
    decide
  intro d hd
  have hd := List.all_eq_true.mp (List.all_eq_true.mp hall _ h) d hd
  rwa [Bool.and_eq_true, Bool.not_eq_true'] at hd

namespace WrittenValue

variable {quote : Char} {value text : List Char}

/-- A value is what its text expands to, at any place. -/
theorem expandFrom_eq (h : WrittenValue quote value text) (size place : Nat) :
    expandFrom size place text = .ok value := by
  induction h generalizing place with
  | nil => rw [expandFrom]
  | plain hplain _ ih =>
      rw [expandFrom, if_neg (isPlain_iff.mp hplain).1, ih]
      rfl
  | @named c name value text hname _ ih =>
      have hinside : ∀ d ∈ name.toList, inReference d = true := fun d hd =>
        (named_chars hname d hd).1
      have hmark : ∀ d ∈ (';' :: text).head?, inReference d = false := by
        rintro _ ⟨⟩
        rfl
      -- The name goes up to the semicolon behind it, which is not part of it.
      obtain ⟨htake, hdrop⟩ := Text.takeWhile_append_of_head hinside hmark
      rw [expandFrom, if_pos rfl]
      split
      · next after hafter =>
        obtain rfl : text = after := (List.cons.inj (hdrop.symm.trans hafter)).2
        simp only [htake, resolve_named hname, ih]
        rfl
      · next hnone => exact absurd hdrop (hnone text)

/-- A value is what its text expands to. -/
theorem expand_eq (h : WrittenValue quote value text) : expand text = .ok value :=
  h.expandFrom_eq _ _

/-- The text of a value goes on to the quote behind it. -/
theorem ne_quote (h : WrittenValue quote value text) (hquote : isQuote quote = true) :
    ∀ d ∈ text, d ≠ quote := by
  induction h with
  | nil => exact fun _ hd => absurd hd List.not_mem_nil
  | plain hplain _ ih => exact List.forall_mem_cons.mpr ⟨(isPlain_iff.mp hplain).2.2, ih⟩
  | @named c name value text hname _ ih =>
      have hmark : ∀ d, isQuote d = false → d ≠ quote := by
        rintro d hd rfl
        exact Bool.false_ne_true (hd.symm.trans hquote)
      refine List.forall_mem_cons.mpr ⟨hmark '&' (by decide), List.forall_mem_append.mpr ⟨?_, ?_⟩⟩
      · exact fun d hd => hmark d (named_chars hname d hd).2
      · exact List.forall_mem_cons.mpr ⟨hmark ';' (by decide), ih⟩

end WrittenValue

/-! ## Attributes -/

theorem isQuote_of_or {quote : Char} (h : quote = '"' ∨ quote = '\'') : isQuote quote = true := by
  rcases h with rfl | rfl <;> rfl

/-- No character of a name separates. -/
theorem not_isBlank_of_inName {c : Char} (h : inName c = true) : Text.isBlank c = false := by
  rw [inName, Bool.not_eq_true', Bool.or_eq_false_iff] at h
  exact h.1

/-- A character of a name is none of the marks. -/
theorem ne_mark_of_inName {c mark : Char} (h : inName c = true)
    (hmark : mark ∈ ['<', '>', '/', '=', '"', '\'', '&', '!', '?']) : c ≠ mark := by
  rw [inName, Bool.not_eq_true', Bool.or_eq_false_iff] at h
  rintro rfl
  exact Bool.false_ne_true (h.2.symm.trans (List.contains_iff_mem.mpr hmark))

/-- A name is a character with others behind it. -/
theorem isName.exists_cons {name : String} (h : isName name = true) :
    ∃ c rest, name.toList = c :: rest ∧ ∀ d ∈ c :: rest, inName d = true := by
  rw [isName, Bool.and_eq_true, List.all_eq_true] at h
  cases hname : name.toList with
  | nil =>
      rw [hname] at h
      exact absurd h.1 Bool.false_ne_true
  | cons c rest => exact ⟨c, rest, rfl, hname ▸ h.2⟩

/-- All characters of a name can be part of one. -/
theorem isName.forall_mem {name : String} (h : isName name = true) :
    ∀ c ∈ name.toList, inName c = true := by
  obtain ⟨c, rest, hname, hin⟩ := isName.exists_cons h
  rw [hname]
  exact hin

theorem inKey_of_inName {c : Char} (h : inName c = true) : inKey c = true := by
  rw [inKey, not_isBlank_of_inName h, decide_eq_false (ne_mark_of_inName h (by decide))]
  rfl

/-- A written attribute is found with the text of its value, and the search goes
    on behind it. -/
theorem scanAttributes_cons {taken : List (List Char)} {key : String} {quote : Char}
    {front before behind text : List Char} (hfront : Blanks front) (hkey : isName key = true)
    (htaken : key.toList ∉ taken) (hbefore : Blanks before) (hbehind : Blanks behind)
    (hquote : isQuote quote = true) (htext : ∀ d ∈ text, d ≠ quote) (rest : List Char) :
    scanAttributes taken
        (front ++ (key.toList ++ (before ++ '=' :: (behind ++ quote :: (text ++ quote :: rest))))) =
      (key.toList, text) :: scanAttributes (key.toList :: taken) rest := by
  obtain ⟨c, name, hname, hchars⟩ := isName.exists_cons hkey
  rw [hname] at htaken ⊢
  have hinside : ∀ d ∈ name, inKey d = true := fun d hd =>
    inKey_of_inName (hchars d (List.mem_cons_of_mem c hd))
  have hspells : Spells rest _ _ _ := .intro hfront
    (not_isBlank_of_inName (hchars c List.mem_cons_self)) hinside hbefore hbehind hquote htext
  rw [List.cons_append, scanAttributes_eq, hspells.nextAttribute?_eq htaken]
  rfl

/-- The attributes of a tag are found in the order of the text, as long as none
    of their keys is taken. -/
theorem WrittenAttributes.expandValues_eq {order : List (String × String)} {text : List Char}
    (h : WrittenAttributes order text) {taken : List (List Char)}
    (hnodup : (order.map Prod.fst).Nodup) (htaken : ∀ key ∈ order.map Prod.fst,
      key.toList ∉ taken) :
    expandValues (scanAttributes taken text) = .ok order := by
  induction h generalizing taken with
  | @nil blanks hblanks =>
      -- Blanks alone are passed over, and nothing is found.
      have hnone : scanAttributes taken blanks = [] := (AttributeList.nil hblanks).scan_eq
      rw [hnone]
      rfl
  | @cons key value others quote front before behind text rest _ hfront hkey hbefore hbehind hquote
      hvalue _ ih =>
      rw [List.map_cons, List.nodup_cons] at hnodup
      rw [List.map_cons, List.forall_mem_cons] at htaken
      have hquote := isQuote_of_or hquote
      rw [scanAttributes_cons hfront hkey htaken.1 hbefore hbehind hquote (hvalue.ne_quote hquote),
        expandValues, hvalue.expand_eq]
      -- The key is taken from here on, and none of the others is the same.
      have hothers : ∀ other ∈ others.map Prod.fst, other.toList ∉ key.toList :: taken := by
        intro other hother hmem
        rcases List.mem_cons.mp hmem with heq | hmem
        · rw [String.toList_inj.mp heq] at hother
          exact hnodup.1 hother
        · exact htaken.2 other hother hmem
      show ((expandValues _).bind _) = _
      rw [ih hnodup.2 hothers]
      show Except.ok ((String.ofList key.toList, String.ofList value.toList) :: others) = _
      rw [String.ofList_toList, String.ofList_toList]

/-! ## Tags -/

/-- Where no key comes twice, a lookup does not see the order. -/
theorem lookup_of_perm {order attributes : List (String × String)} (h : order.Perm attributes)
    (hnodup : (order.map Prod.fst).Nodup) (key : String) :
    order.lookup key = attributes.lookup key := by
  induction h with
  | nil => rfl
  | cons entry _ ih =>
      rw [List.map_cons, List.nodup_cons] at hnodup
      rw [List.lookup_cons, List.lookup_cons, ih hnodup.2]
  | swap entry other _ =>
      have hne : other.1 ≠ entry.1 := by
        rw [List.map_cons, List.nodup_cons, List.map_cons] at hnodup
        exact fun heq => hnodup.1 (heq ▸ List.mem_cons_self)
      rw [List.lookup_cons, List.lookup_cons, List.lookup_cons, List.lookup_cons]
      by_cases hentry : key = entry.1
      · subst hentry
        rw [beq_self_eq_true, beq_eq_false_iff_ne.mpr hne.symm]
      · rw [beq_eq_false_iff_ne.mpr hentry]
  | trans hfirst _ ih ih' =>
      exact (ih hnodup).trans (ih' ((hfirst.map Prod.fst).nodup_iff.mp hnodup))

/-- The tag has the name, and whatever is asked of its attributes is answered as
    by the given ones. -/
structure Tag.Has (tag : Tag) (name : String) (attributes : List (String × String)) : Prop where
  name_eq : tag.name = name
  attributes_eq : ∃ found, tag.attributes = .ok found ∧
    ∀ key, found.lookup key = attributes.lookup key

/-- What stands behind the name of a tag begins with a blank, if with
    anything. -/
theorem WrittenAttributes.isBlank_head {order : List (String × String)} {text : List Char}
    (h : WrittenAttributes order text) : ∀ c ∈ text.head?, Text.isBlank c = true := by
  intro c hc
  cases h with
  | nil hblanks => exact hblanks c (List.mem_of_mem_head? hc)
  | @cons _ _ _ _ front _ _ _ _ hne hfront =>
      cases front with
      | nil => exact absurd rfl hne
      | cons d more =>
          obtain rfl := Option.some.inj hc
          exact hfront d List.mem_cons_self

/-- A written tag has the name and the attributes it was written for. -/
theorem WrittenTag.has {name : String} {attributes : List (String × String)} {text : List Char}
    (h : WrittenTag name attributes text) : (Tag.ofText text).Has name attributes := by
  obtain @⟨order, text, hname, hnodup, hperm, htext⟩ := h
  have horder : (order.map Prod.fst).Nodup := (hperm.map Prod.fst).nodup_iff.mpr hnodup
  -- The name ends at the first blank, and there is none inside it.
  have hblank : ∀ d ∈ name.toList, (!Text.isBlank d) = true := by
    intro d hd
    rw [not_isBlank_of_inName (isName.forall_mem hname d hd)]
    rfl
  obtain ⟨htake, hrest⟩ := Text.takeWhile_append_of_head hblank fun d hd => by
    rw [htext.isBlank_head d hd]
    rfl
  refine ⟨?_, order, ?_, lookup_of_perm hperm horder⟩
  · rw [Tag.ofText, htake, String.ofList_toList]
  · rw [Tag.attributes, Tag.ofText, fromBlank, hrest]
    exact htext.expandValues_eq horder fun _ _ => List.not_mem_nil

end Xml

end FunctionalOptions
