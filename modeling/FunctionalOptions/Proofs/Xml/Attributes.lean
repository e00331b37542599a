import FunctionalOptions.Proofs.Text.Runs
import FunctionalOptions.Proofs.Xml.Writing
import FunctionalOptions.Xml.Tag
import Mathlib.Data.List.TakeWhile

/-!
# Attributes and What is None

The search for the attributes of a tag keeps silent about whatever it passes
over. Taken apart into its steps it has a lot to say: each step comes upon an
attribute or upon a fault, and the attributes that are found are what is left of
the steps when the faults are dropped.

That the faults are the right ones is seen against a description of attribute
lists that knows nothing of the search: blanks, a key that has not come before,
an equals sign, a value between two quotes, and so on up to the end. Texts of
this kind are those the search goes through without a fault. Which characters a
key consists of is left open, as the search leaves it open, and so is whether
there are blanks between attributes.

Whatever a tag looks like, the attributes found in it can be written down
again, each with a blank in front of it. The keys that are taken are the one
difficulty. An attribute at fault can take a key, and nothing is taken by it any
more once it is gone. So a list has to stay one when fewer keys are taken.

## Main definitions

* `AttributeFault`: What is wrong with something that is no attribute.
* `nextAttribute?`: What the search comes upon first.
* `survey`: All that the search comes upon.
* `Spells`, `AttributeList`: The texts of an attribute, and of a list of them.
* `Tag.Intact`: Nothing but attributes stands behind the name of a tag.
* `Tag.mended`: The tag with nothing but the attributes found in it.

## Theorems

* `nextAttribute?_eq_ok_iff`: The search comes upon an attribute exactly where
  one is spelled whose key is not taken.
* `scanAttributes_eq_survey`: The attributes found are those among all that the
  search comes upon.
* `survey_eq_ok_iff`: The search comes upon attributes only exactly in the
  lists of attributes.
* `Tag.intact_iff`: A tag is intact if there are no faults in it.
* `Tag.mended_intact`, `Tag.scan_mended`: A mended tag is intact and has the
  attributes that were found.
-/

namespace FunctionalOptions

namespace Xml

/-! ## The steps of the search -/

/-- What is wrong with something that stands where an attribute could, with its
    key. -/
inductive AttributeFault where
  /-- No equals sign comes behind the key. -/
  | noEquals (key : List Char)
  /-- The key is taken. -/
  | repeated (key : List Char)
  /-- Nothing comes behind the equals sign. -/
  | noValue (key : List Char)
  /-- What comes behind the equals sign does not begin with a quote. -/
  | notQuoted (key : List Char)
  /-- The value does not come to its other quote. -/
  | notClosed (key : List Char)
deriving DecidableEq, Repr

/-- An attribute as it is spelled, with its key and its value, or a fault. -/
abbrev Item : Type :=
  Except AttributeFault (List Char × List Char)

/-- A step of the search: what it comes upon, the keys that are taken from then
    on, and the text it goes on with. -/
structure Found where
  item : Item
  taken : List (List Char)
  rest : List Char

/-- What the search comes upon first. -/
def nextAttribute? (taken : List (List Char)) (text : List Char) : Option Found :=
  match text.dropWhile Text.isBlank with
  | [] => none
  | first :: more =>
    let key := first :: more.takeWhile inKey
    match (more.dropWhile inKey).dropWhile Text.isBlank with
    | [] => some ⟨.error (.noEquals key), taken, []⟩
    | mark :: value =>
      if mark != '=' then some ⟨.error (.noEquals key), taken, mark :: value⟩
      else if taken.contains key then some ⟨.error (.repeated key), taken, fromBlank value⟩
      else
        match value.dropWhile Text.isBlank with
        | [] => some ⟨.error (.noValue key), key :: taken, []⟩
        | quote :: body =>
          if isQuote quote then
            match body.dropWhile (· != quote) with
            | [] => some ⟨.error (.notClosed key), key :: taken, []⟩
            | _ :: after => some ⟨.ok (key, body.takeWhile (· != quote)), key :: taken, after⟩
          else some ⟨.error (.notQuoted key), key :: taken, fromBlank body⟩

/-- Each step leaves less to search, and no key is free again after it. -/
theorem nextAttribute?_decreases (taken : List (List Char)) (text : List Char) :
    ∀ found ∈ nextAttribute? taken text,
      found.rest.length < text.length ∧ taken ⊆ found.taken := by
  have hbehind : ∀ {more value : List Char} {mark : Char},
      (more.dropWhile inKey).dropWhile Text.isBlank = mark :: value →
        value.length < more.length := fun h =>
    (Text.length_lt_of_dropWhile h).trans_le (List.dropWhile_sublist inKey).length_le
  -- Whatever is left stands behind the first character that is no blank.
  fun_cases nextAttribute? taken text with
  | case1 => rintro _ ⟨⟩
  | case2 first more hfirst =>
      rintro _ ⟨⟩
      have hmore := Text.length_lt_of_dropWhile hfirst
      exact ⟨Nat.zero_lt_of_lt hmore, List.Subset.refl taken⟩
  | case3 first more hfirst key mark value hmark =>
      rintro _ ⟨⟩
      have hmore := Text.length_lt_of_dropWhile hfirst
      have hvalue := hbehind hmark
      exact ⟨by simp only [List.length_cons]; omega, List.Subset.refl taken⟩
  | case4 first more hfirst key mark value hmark =>
      rintro _ ⟨⟩
      have hmore := Text.length_lt_of_dropWhile hfirst
      have hvalue := hbehind hmark
      have hrest := fromBlank_length value
      exact ⟨by simp only; omega, List.Subset.refl taken⟩
  | case5 first more hfirst key =>
      rintro _ ⟨⟩
      have hmore := Text.length_lt_of_dropWhile hfirst
      exact ⟨Nat.zero_lt_of_lt hmore, List.subset_cons_self key taken⟩
  | case6 first more hfirst key =>
      rintro _ ⟨⟩
      have hmore := Text.length_lt_of_dropWhile hfirst
      exact ⟨Nat.zero_lt_of_lt hmore, List.subset_cons_self key taken⟩
  | case7 first more hfirst key mark value hmark _ _ quote body hquote _ last after hlast =>
      rintro _ ⟨⟩
      have hmore := Text.length_lt_of_dropWhile hfirst
      have hvalue := hbehind hmark
      have hbody := Text.length_lt_of_dropWhile hquote
      have hrest := Text.length_lt_of_dropWhile hlast
      exact ⟨by simp only; omega, List.subset_cons_self key taken⟩
  | case8 first more hfirst key mark value hmark _ _ quote body hquote =>
      rintro _ ⟨⟩
      have hmore := Text.length_lt_of_dropWhile hfirst
      have hvalue := hbehind hmark
      have hbody := Text.length_lt_of_dropWhile hquote
      have hrest := fromBlank_length body
      exact ⟨by simp only; omega, List.subset_cons_self key taken⟩

theorem scanAttributes_nil (taken : List (List Char)) : scanAttributes taken [] = [] := by
  rw [scanAttributes]
  rfl

/-- The attributes found are the one the search comes upon first, if it is one,
    and those in what it goes on with. -/
theorem scanAttributes_eq (taken : List (List Char)) (text : List Char) :
    scanAttributes taken text = match nextAttribute? taken text with
      | none => []
      | some found => found.item.toOption.toList ++ scanAttributes found.taken found.rest := by
  rw [scanAttributes, nextAttribute?]
  -- Both look at the same places in the same order. Where the text is used up, there is
  -- nothing more to be found.
  split
  · next h => rw [h]
  next h =>
  rw [h]
  dsimp only
  split
  · next h => simp only [h, scanAttributes_nil]; rfl
  next h =>
  simp only [h]
  split
  · rfl
  split
  · rfl
  split
  · next h => simp only [h, scanAttributes_nil]; rfl
  next h =>
  simp only [h]
  split
  · split
    · next h => simp only [h, scanAttributes_nil]; rfl
    next h =>
    simp only [h]
    rfl
  · rfl

/-- All that the search comes upon. -/
def survey (taken : List (List Char)) (text : List Char) : List Item :=
  match _h : nextAttribute? taken text with
  | none => []
  | some found => found.item :: survey found.taken found.rest
termination_by text.length
decreasing_by exact (nextAttribute?_decreases taken text found _h).1

theorem survey_eq (taken : List (List Char)) (text : List Char) :
    survey taken text = match nextAttribute? taken text with
      | none => []
      | some found => found.item :: survey found.taken found.rest := by
  rw [survey]
  split
  · next h => rw [h]
  · next h => rw [h]

/-- The attributes found are those among all that the search comes upon. -/
theorem scanAttributes_eq_survey (taken : List (List Char)) (text : List Char) :
    scanAttributes taken text = (survey taken text).filterMap Except.toOption := by
  fun_induction survey taken text with
  | case1 taken text h => rw [scanAttributes_eq, h, List.filterMap_nil]
  | case2 taken text found h ih =>
      rw [scanAttributes_eq, h, List.filterMap_cons]
      simp only [ih]
      cases found.item <;> rfl

/-! ## Lists of attributes -/

/-- Blanks are passed over up to what is none. -/
theorem Blanks.dropWhile_append {blanks : List Char} (h : Blanks blanks) {c : Char}
    (hc : Text.isBlank c = false) (rest : List Char) :
    (blanks ++ c :: rest).dropWhile Text.isBlank = c :: rest :=
  (Text.takeWhile_append_of_head h (by rintro _ ⟨⟩; exact hc)).2

/-- What comes behind a key, the first blank or the equals sign, ends it. -/
theorem Blanks.not_inKey_head {blanks : List Char} (h : Blanks blanks) (rest : List Char) :
    ∀ c ∈ (blanks ++ '=' :: rest).head?, inKey c = false := by
  cases blanks with
  | nil =>
      rintro _ ⟨⟩
      rfl
  | cons d more =>
      rintro _ ⟨⟩
      rw [inKey, h d List.mem_cons_self, Bool.or_true]
      rfl

theorem not_isBlank_of_isQuote {quote : Char} (h : isQuote quote = true) :
    Text.isBlank quote = false := by
  rcases Bool.or_eq_true_iff.mp h with h | h <;>
  · rw [of_decide_eq_true h]
    rfl

/-- The text begins with an attribute of the key and the value, with any blanks in
    front of it, and goes on with `rest`. The key is a character and those that
    can continue it, and the value is without the quote that encloses it. -/
inductive Spells (rest : List Char) : List Char → List Char → List Char → Prop where
  | intro {first quote : Char} {front name before behind value : List Char} :
    Blanks front → Text.isBlank first = false → (∀ c ∈ name, inKey c = true) → Blanks before →
    Blanks behind → isQuote quote = true → (∀ c ∈ value, c ≠ quote) →
    Spells rest (first :: name) value
      (front ++ first :: (name ++ (before ++ '=' :: (behind ++ quote :: (value ++ quote :: rest)))))

/-- The search comes upon the attribute that a text spells if the key is not
    taken, which it is from then on. -/
theorem Spells.nextAttribute?_eq {key value rest text : List Char} (h : Spells rest key value text)
    {taken : List (List Char)} (htaken : key ∉ taken) :
    nextAttribute? taken text = some ⟨.ok (key, value), key :: taken, rest⟩ := by
  cases h with
  | @intro first quote front name before behind value hfront hfirst hname hbefore hbehind hquote
      hvalue =>
      -- The key ends at the first blank behind it, or at the equals sign.
      obtain ⟨htake, hdrop⟩ := Text.takeWhile_append_of_head hname
        (hbefore.not_inKey_head (behind ++ quote :: (value ++ quote :: rest)))
      -- The value ends at the next quote of the same kind, and it holds none.
      have hplain : ∀ d ∈ value, (d != quote) = true := fun d hd => bne_iff_ne.mpr (hvalue d hd)
      have hlast : ∀ d ∈ (quote :: rest).head?, (d != quote) = false := by
        rintro _ ⟨⟩
        exact bne_self_eq_false quote
      obtain ⟨htakeValue, hdropValue⟩ := Text.takeWhile_append_of_head hplain hlast
      have hmark : ¬('=' != '=') = true := by decide
      have hfree : ¬taken.contains (first :: name) = true := by simpa using htaken
      rw [nextAttribute?, hfront.dropWhile_append hfirst]
      dsimp only
      rw [htake, hdrop, hbefore.dropWhile_append (by decide)]
      dsimp only
      rw [if_neg hmark, if_neg hfree, hbehind.dropWhile_append (not_isBlank_of_isQuote hquote)]
      dsimp only
      rw [if_pos hquote, hdropValue, htakeValue]

/-- An attribute that the search comes upon is spelled there, and its key was not
    taken before. -/
theorem spells_of_nextAttribute? {taken : List (List Char)} {text key value : List Char} :
    ∀ found ∈ nextAttribute? taken text, found.item = .ok (key, value) →
      key ∉ taken ∧ found.taken = key :: taken ∧ Spells found.rest key value text := by
  fun_cases nextAttribute? taken text with
  | case7 first more hfirst name mark tail hequals hmark hfree quote body hopen hquote last after
      hclose =>
      rintro _ ⟨⟩ hitem
      obtain ⟨rfl, rfl⟩ := Prod.mk.inj (Except.ok.inj hitem)
      -- Each run that was read, with what stands behind it.
      obtain ⟨htext, hfront, hfirst⟩ := Text.eq_append_of_dropWhile hfirst
      obtain ⟨hmore, hbefore, _⟩ := Text.eq_append_of_dropWhile hequals
      obtain ⟨htail, hbehind, _⟩ := Text.eq_append_of_dropWhile hopen
      obtain ⟨hbody, hvalue, hlast⟩ := Text.eq_append_of_dropWhile hclose
      obtain rfl : mark = '=' := by simpa using hmark
      obtain rfl : last = quote := by simpa using hlast
      have hspells : Spells after _ _ _ := .intro hfront hfirst
        (List.all_eq_true.mp (List.all_takeWhile (l := more))) hbefore hbehind hquote
        fun d hd => bne_iff_ne.mp (hvalue d hd)
      -- Put together again, the runs are the text.
      rw [← hbody, ← htail, ← hmore, List.takeWhile_append_dropWhile, ← htext] at hspells
      exact ⟨by simpa using hfree, rfl, hspells⟩
  | _ => rintro _ ⟨⟩ ⟨⟩

/-- The search comes upon an attribute exactly where one is spelled whose key is
    not taken. -/
theorem nextAttribute?_eq_ok_iff {taken others : List (List Char)}
    {text key value rest : List Char} :
    nextAttribute? taken text = some ⟨.ok (key, value), others, rest⟩ ↔
      key ∉ taken ∧ others = key :: taken ∧ Spells rest key value text := by
  constructor
  · intro h
    exact spells_of_nextAttribute? _ h rfl
  · rintro ⟨htaken, rfl, hspells⟩
    exact hspells.nextAttribute?_eq htaken

/-- The search comes upon nothing in blanks, and only there. -/
theorem nextAttribute?_eq_none_iff {taken : List (List Char)} {text : List Char} :
    nextAttribute? taken text = none ↔ Blanks text := by
  constructor
  · fun_cases nextAttribute? taken text with
    | case1 hend => exact fun _ => List.dropWhile_eq_nil_iff.mp hend
    | _ => exact nofun
  · intro hblanks
    rw [nextAttribute?, List.dropWhile_eq_nil_iff.mpr hblanks]

/-- The text spells the attributes one after the other and nothing else, with any
    blanks behind the last. No key comes twice or is taken. -/
inductive AttributeList : List (List Char) → List (List Char × List Char) → List Char → Prop where
  | nil {taken : List (List Char)} {text : List Char} : Blanks text → AttributeList taken [] text
  | cons {taken : List (List Char)} {key value rest text : List Char}
      {others : List (List Char × List Char)} :
    key ∉ taken → Spells rest key value text → AttributeList (key :: taken) others rest →
    AttributeList taken ((key, value) :: others) text

/-- The search comes upon the given attributes and nothing else exactly in the
    lists of these attributes. -/
theorem survey_eq_ok_iff {taken : List (List Char)} {text : List Char}
    {attributes : List (List Char × List Char)} :
    survey taken text = attributes.map .ok ↔ AttributeList taken attributes text := by
  constructor
  · intro h
    fun_induction survey taken text generalizing attributes with
    | case1 taken text hnone =>
        rw [List.map_eq_nil_iff.mp h.symm]
        exact .nil (nextAttribute?_eq_none_iff.mp hnone)
    | case2 taken text found hfound ih =>
        obtain ⟨⟨key, value⟩, others, rfl, hitem, hothers⟩ := List.map_eq_cons_iff.mp h.symm
        obtain ⟨htaken, hkeys, hspells⟩ := spells_of_nextAttribute? found hfound hitem.symm
        exact .cons htaken hspells (hkeys ▸ ih hothers.symm)
  · intro h
    induction h with
    | nil hblanks => rw [survey_eq, nextAttribute?_eq_none_iff.mpr hblanks, List.map_nil]
    | cons htaken hspells _ ih =>
        rw [survey_eq, hspells.nextAttribute?_eq htaken, List.map_cons]
        simp only [ih]

/-- A list of attributes stays one when fewer keys are taken. -/
theorem AttributeList.of_subset {taken fewer : List (List Char)}
    {attributes : List (List Char × List Char)} {text : List Char}
    (h : AttributeList taken attributes text) (hfewer : fewer ⊆ taken) :
    AttributeList fewer attributes text := by
  induction h generalizing fewer with
  | nil hblanks => exact .nil hblanks
  | cons htaken hspells _ ih =>
      exact .cons (fun hmem => htaken (hfewer hmem)) hspells (ih (List.cons_subset_cons _ hfewer))

/-- The attributes of a list are found. -/
theorem AttributeList.scan_eq {taken : List (List Char)}
    {attributes : List (List Char × List Char)} {text : List Char}
    (h : AttributeList taken attributes text) : scanAttributes taken text = attributes := by
  rw [scanAttributes_eq_survey, survey_eq_ok_iff.mpr h, List.filterMap_map]
  exact List.filterMap_some

/-- Where there are no faults, nothing is dropped with the faults. -/
theorem eq_map_ok {items : List Item} (h : ∀ item ∈ items, item.isOk = true) :
    items = (items.filterMap Except.toOption).map .ok := by
  induction items with
  | nil => rfl
  | cons item rest ih =>
      obtain ⟨hitem, hrest⟩ := List.forall_mem_cons.mp h
      cases item with
      | error fault => cases hitem
      | ok pair => exact congrArg (Except.ok pair :: ·) (ih hrest)

/-! ## Mending -/

/-- A quote that can enclose the value, as far as there is one. -/
def quoteFor (value : List Char) : Char :=
  if '"' ∈ value then '\'' else '"'

/-- The text of attributes, each with a blank in front of it. -/
def mend : List (List Char × List Char) → List Char
  | [] => []
  | (key, value) :: others =>
    ' ' :: (key ++ '=' :: quoteFor value :: (value ++ quoteFor value :: mend others))

/-- An attribute that is spelled somewhere is spelled like that, whatever comes
    behind it. -/
theorem Spells.mend {rest key value text : List Char} (h : Spells rest key value text)
    (behind : List Char) :
    Spells behind key value
      (' ' :: (key ++ '=' :: quoteFor value :: (value ++ quoteFor value :: behind))) := by
  cases h with
  | @intro first quote _ name _ _ _ _ hfirst hname _ _ hquote hvalue =>
      have hisQuote : isQuote (quoteFor value) = true := by
        unfold quoteFor
        split <;> rfl
      -- A double quote inside the value means that it stood between single ones.
      have hplain : ∀ d ∈ value, d ≠ quoteFor value := by
        unfold quoteFor
        split
        · next hdouble =>
          have hne := hvalue _ hdouble
          rcases Bool.or_eq_true_iff.mp hquote with hq | hq
          · exact absurd (of_decide_eq_true hq).symm hne
          · rwa [of_decide_eq_true hq] at hvalue
        · next hdouble =>
          rintro _ hd rfl
          exact hdouble hd
      exact .intro blanks_space hfirst hname blanks_nil blanks_nil hisQuote hplain

/-- What was found is a list of attributes when it is written down again. -/
theorem attributeList_mend (taken : List (List Char)) (text : List Char) :
    AttributeList taken (scanAttributes taken text) (mend (scanAttributes taken text)) := by
  fun_induction survey taken text with
  | case1 taken text hnone =>
      rw [scanAttributes_eq, hnone]
      exact .nil blanks_nil
  | case2 taken text found hfound ih =>
      rw [scanAttributes_eq, hfound]
      dsimp only
      cases hitem : found.item with
      | error fault =>
          -- What follows a fault may have its key taken, which is free once the fault is gone.
          exact ih.of_subset (nextAttribute?_decreases taken text found hfound).2
      | ok pair =>
          obtain ⟨key, value⟩ := pair
          obtain ⟨htaken, hkeys, hspells⟩ := spells_of_nextAttribute? found hfound hitem
          exact .cons htaken (hspells.mend _) (hkeys ▸ ih)

namespace Tag

/-- Nothing but attributes stands behind the name of a tag: each has a key that
    does not come twice, an equals sign and a value between quotes. -/
def Intact (tag : Tag) : Prop :=
  ∃ attributes, AttributeList [] attributes tag.rest

/-- The tag with nothing but the attributes found in it. -/
def mended (tag : Tag) : Tag :=
  ⟨tag.name, mend (scanAttributes [] tag.rest)⟩

/-- A tag is intact if there are no faults in it. -/
theorem intact_iff {tag : Tag} :
    tag.Intact ↔ ∀ item ∈ survey [] tag.rest, item.isOk = true := by
  constructor
  · rintro ⟨attributes, h⟩
    rw [survey_eq_ok_iff.mpr h]
    exact List.forall_mem_map.mpr fun _ _ => rfl
  · intro h
    exact ⟨_, survey_eq_ok_iff.mp (eq_map_ok h)⟩

theorem mended_intact (tag : Tag) : tag.mended.Intact :=
  ⟨_, attributeList_mend [] tag.rest⟩

/-- The attributes of a mended tag are those that were found. -/
theorem scan_mended (tag : Tag) :
    scanAttributes [] tag.mended.rest = scanAttributes [] tag.rest :=
  (attributeList_mend [] tag.rest).scan_eq

end Tag

end Xml

end FunctionalOptions
