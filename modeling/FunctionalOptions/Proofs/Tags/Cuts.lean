import FunctionalOptions.Proofs.Tags.Scan

/-!
# Where a Tag Is Cut

A lookup that works on the bytes of a tag cuts it at indices, and an index is not safe by
itself. It can lie behind the end of the text or inside a character, where nothing can be
cut. The danger is the backslash: the scan of a value skips the byte behind it without a
look, and that byte may be the first of several that make up a character, or there may be
none.

Here the lookup is told again by its indices, with every cut in a log. A cut that is not
possible ends the lookup without a result, so it is enough to see that a result comes out,
namely that of `StructTag.lookup`. The indices are the ends of the pieces that the
characters of the tag fall into. The scan stops at the quote that is found by characters,
and where no quote is found it stops at the end or one byte behind it, and nothing is cut.

What follows a pair is shorter than what began with it. So the passes come to an end, and
the length of the tag limits their number.

## Main definitions

* `StructTag.Cut`: A place at which a text is cut, which may be valid or not.
* `StructTag.Cutting`: A computation with the cuts that it makes.
* `StructTag.valueEnd`: The scan of a value by its index.
* `StructTag.pass`: What is done with the pair that a text begins with.
* `StructTag.run`: All the passes of a lookup.

## Theorems

* `StructTag.cut_isSome_iff`: A text can be cut exactly at the valid places.
* `StructTag.valueEnd_eq`: Where the scan of a value stops.
* `StructTag.result_pass`: A pass takes the first pair off.
* `StructTag.length_of_pass`: What a pass leaves is shorter by the pair.
* `StructTag.run_cuts`: A lookup cuts at valid places only and comes to an end.
-/

namespace FunctionalOptions

namespace Go

namespace StructTag

/-! ## Cuts -/

/-- A place at which a text is cut, given by the number of bytes in front of it. -/
structure Cut where
  text : List Char
  index : Nat
deriving DecidableEq

/-- The place is not behind the end of the text, and not inside a character. -/
def Cut.Valid (c : Cut) : Prop :=
  (String.Pos.Raw.mk c.index).IsValid (String.ofList c.text)

theorem utf8ByteSize_ofList (text : List Char) :
    (String.ofList text).utf8ByteSize = (utf8 text).length := by
  rw [← String.size_toByteArray, toByteArray_ofList, List.size_toByteArray]

/-- A cut leaves as many bytes in front of it as it is told. -/
theorem cut_eq_some_iff {index : Nat} {text before after : List Char} :
    cut index text = some (before, after) ↔
      text = before ++ after ∧ index = (utf8 before).length := by
  constructor
  · intro h
    refine ⟨cut_append h, ?_⟩
    fun_induction cut index text generalizing before after with
    | case1 text =>
      obtain ⟨rfl, rfl⟩ := Prod.mk.inj (Option.some.inj h)
      rfl
    | case2 => contradiction
    | case3 n c text hsize ih =>
      rcases Option.map_eq_some_iff.mp h with ⟨⟨before, after⟩, hcut, heq⟩
      obtain ⟨rfl, rfl⟩ := Prod.mk.inj heq
      have hindex := ih hcut
      -- The bytes of the first character were taken off the index.
      rw [utf8_cons, List.length_append, String.length_utf8EncodeChar]
      omega
    | case4 => contradiction
  · rintro ⟨rfl, rfl⟩
    exact cut_utf8 before after

/-- A text can be cut exactly at the valid places. -/
theorem cut_isSome_iff {index : Nat} {text : List Char} :
    (cut index text).isSome ↔ Cut.Valid ⟨text, index⟩ := by
  rw [Cut.Valid, String.Pos.Raw.isValid_iff_exists_append, Option.isSome_iff_exists]
  constructor
  · rintro ⟨⟨before, after⟩, h⟩
    -- Both say that a text stands in front which takes that many bytes.
    rcases cut_eq_some_iff.mp h with ⟨rfl, rfl⟩
    refine ⟨String.ofList before, String.ofList after, String.ofList_append, ?_⟩
    rw [String.Pos.Raw.ext_iff, String.byteIdx_rawEndPos, utf8ByteSize_ofList]
  · rintro ⟨before, after, htext, hindex⟩
    refine ⟨(before.toList, after.toList), cut_eq_some_iff.mpr ⟨?_, ?_⟩⟩
    · rw [← String.toList_append, ← htext, String.toList_ofList]
    · rw [← utf8ByteSize_ofList, String.ofList_toList]
      exact congrArg String.Pos.Raw.byteIdx hindex

/-! ## Computations that cut -/

/-- A computation with the cuts that it makes. It ends without a result at a cut that is not
    possible. -/
structure Cutting (α : Type) where
  cuts : List Cut
  result : Option α

namespace Cutting

variable {α β : Type}

/-- A computation that cuts nothing. -/
def done (a : α) : Cutting α :=
  ⟨[], some a⟩

/-- Run the second part on the result of the first. -/
def andThen (x : Cutting α) (f : α → Cutting β) : Cutting β :=
  match x.result with
  | none => ⟨x.cuts, none⟩
  | some a => ⟨x.cuts ++ (f a).cuts, (f a).result⟩

instance : Monad Cutting where
  pure := done
  bind := andThen

/-- What is in front of an index. -/
def before (index : Nat) (text : List Char) : Cutting (List Char) :=
  ⟨[⟨text, index⟩], (cut index text).map Prod.fst⟩

/-- What is behind an index. -/
def behind (index : Nat) (text : List Char) : Cutting (List Char) :=
  ⟨[⟨text, index⟩], (cut index text).map Prod.snd⟩

/-- If there is a result, all the cuts were valid. -/
def Sound (x : Cutting α) : Prop :=
  x.result.isSome → ∀ c ∈ x.cuts, c.Valid

theorem Sound.pure (a : α) : Sound (pure a : Cutting α) :=
  fun _ => List.forall_mem_nil _

theorem Sound.bind {x : Cutting α} {f : α → Cutting β} (hx : x.Sound)
    (hf : ∀ a, (f a).Sound) : (x >>= f).Sound := by
  show (x.andThen f).Sound
  unfold andThen
  cases hresult : x.result with
  -- Without a result nothing is said about the cuts.
  | none => exact fun h => absurd h Bool.false_ne_true
  | some a =>
      intro h
      rw [Sound, hresult] at hx
      exact List.forall_mem_append.mpr ⟨hx rfl, hf a h⟩

theorem Sound.before (index : Nat) (text : List Char) : (Cutting.before index text).Sound := by
  intro h
  rw [Cutting.before, Option.isSome_map, cut_isSome_iff] at h
  exact List.forall_mem_singleton.mpr h

theorem Sound.behind (index : Nat) (text : List Char) : (Cutting.behind index text).Sound := by
  intro h
  rw [Cutting.behind, Option.isSome_map, cut_isSome_iff] at h
  exact List.forall_mem_singleton.mpr h

theorem Sound.ite {p : Prop} [Decidable p] {x y : Cutting α} (hx : x.Sound) (hy : y.Sound) :
    (if p then x else y).Sound := by
  split
  · exact hx
  · exact hy

@[simp] theorem result_bind (x : Cutting α) (f : α → Cutting β) :
    (x >>= f).result = x.result.bind fun a => (f a).result := by
  show (x.andThen f).result = _
  unfold andThen
  cases x.result <;> rfl

theorem result_before (text more : List Char) :
    (before (utf8 text).length (text ++ more)).result = some text := by
  rw [before, cut_utf8, Option.map_some]

theorem result_behind (text more : List Char) :
    (behind (utf8 text).length (text ++ more)).result = some more := by
  rw [behind, cut_utf8, Option.map_some]

end Cutting

/-! ## Indices -/

/-- The index of the first character that is not part of a key, or that of the end. -/
def keyEnd (text : List Char) : Nat :=
  (bytes (text.takeWhile isKeyChar)).length

/-- The index at which the scan of a value stops: that of a quote, or one that is not in
    front of the end. The byte behind a backslash is skipped. -/
def valueEnd (bytes : List UInt8) (index : Nat) : Nat :=
  if h : index < bytes.length then
    if bytes[index] = 0x22 then index
    else if bytes[index] = 0x5C then valueEnd bytes (index + 2)
    else valueEnd bytes (index + 1)
  else index
termination_by bytes.length - index

/-- The scan of a value stops at the quote that ends it, and otherwise not in front of the
    end. -/
theorem valueEnd_eq (bytes : List UInt8) (index : Nat) :
    match untilQuote 0x22 0x5C false (bytes.drop index) with
    | some (value, _) => valueEnd bytes index = index + value.length
    | none => bytes.length ≤ valueEnd bytes index := by
  fun_induction valueEnd bytes index with
  | case1 index h hquote =>
    rw [List.drop_eq_getElem_cons h, hquote, untilQuote, if_pos rfl]
    rfl
  | case2 index h hquote hslash ih =>
    -- The skipped byte is the protected one, if there is one at all.
    have hskip : bytes.drop (index + 2) = (bytes.drop (index + 1)).tail :=
      List.tail_drop.symm
    rw [hskip] at ih
    rw [List.drop_eq_getElem_cons h, hslash, untilQuote, if_neg (by decide), decide_eq_true rfl]
    cases hrest : bytes.drop (index + 1) with
    | nil =>
        rw [hrest] at ih
        exact ih
    | cons skipped rest =>
        rw [hrest, List.tail_cons] at ih
        rw [untilQuote]
        cases hvalue : untilQuote 0x22 0x5C false rest with
        | none =>
            rw [hvalue] at ih
            exact ih
        | some value =>
            rw [hvalue] at ih
            simp only [Option.map_some, List.length_cons] at ih ⊢
            omega
  | case3 index h hquote hslash ih =>
    -- Any other byte is passed on its own.
    rw [List.drop_eq_getElem_cons h, untilQuote, if_neg hquote, decide_eq_false hslash]
    cases hvalue : untilQuote 0x22 0x5C false (bytes.drop (index + 1)) with
    | none =>
        rw [hvalue] at ih
        exact ih
    | some value =>
        rw [hvalue] at ih
        simp only [Option.map_some, List.length_cons] at ih ⊢
        omega
  | case4 index h =>
    rw [List.drop_eq_nil_of_le (Nat.le_of_not_lt h)]
    exact Nat.le_of_not_lt h

/-! ## Passes -/

/-- The literal that a text begins with, whose first quote is known to be there, and what
    follows it. There is none if no other quote ends it. -/
def takeLiteral (text : List Char) : Cutting (Option (List Char × List Char)) := do
  let index := valueEnd (bytes text) 1
  if (bytes text).length ≤ index then return none
  else
    let literal ← .before (index + 1) text
    let rest ← .behind (index + 1) text
    return some (literal, rest)

theorem sound_takeLiteral (text : List Char) : (takeLiteral text).Sound := by
  refine .ite (.pure _) (.bind (.before _ _) fun literal => ?_)
  exact .bind (.behind _ _) fun rest => .pure _

/-- The literal ends behind the quote that is found by characters. -/
theorem result_takeLiteral (text : List Char) :
    (takeLiteral ('"' :: text)).result =
      some ((untilQuote '"' '\\' false text).map fun (body, rest) =>
        ('"' :: body ++ ['"'], rest)) := by
  -- The scan begins behind the first quote, which is one byte.
  have hindex := valueEnd_eq (bytes ('"' :: text)) 1
  have hbytes : (bytes ('"' :: text)).drop 1 = utf8 text := rfl
  rw [hbytes, untilQuote_utf8] at hindex
  rw [takeLiteral]
  cases hvalue : untilQuote '"' '\\' false text with
  | none =>
      have hend : (bytes ('"' :: text)).length ≤ valueEnd (bytes ('"' :: text)) 1 := by
        rw [hvalue] at hindex
        exact hindex
      rw [if_pos hend]
      rfl
  | some value =>
      rcases value with ⟨body, rest⟩
      have htext : '"' :: text = ('"' :: body ++ ['"']) ++ rest := by
        rw [untilQuote_append hvalue]
        simp only [List.cons_append, List.append_assoc, List.nil_append]
      -- The quote is one byte, so what is cut off ends behind it.
      have hlength : valueEnd (bytes ('"' :: text)) 1 + 1 =
          (utf8 ('"' :: body ++ ['"'])).length := by
        rw [hvalue] at hindex
        have hindex : valueEnd (bytes ('"' :: text)) 1 = 1 + (utf8 body).length := hindex
        rw [hindex, utf8_append, utf8_cons, List.length_append, List.length_append]
        rfl
      -- The literal is a part of the text, so the scan has stopped in front of the end.
      have hend : ¬(bytes ('"' :: text)).length ≤ valueEnd (bytes ('"' :: text)) 1 := by
        rw [bytes_eq_utf8] at hlength ⊢
        have hle : (utf8 ('"' :: body ++ ['"'])).length ≤ (utf8 ('"' :: text)).length := by
          rw [htext, utf8_append _ rest, List.length_append]
          exact Nat.le_add_right _ _
        omega
      rw [if_neg hend, hlength, htext, Cutting.result_bind, Cutting.result_before,
        Option.bind_some, Cutting.result_bind, Cutting.result_behind]
      rfl

/-- How a pass ends: no pair begins here, or there is one, with its key, its literal and
    what follows it. -/
inductive Pass where
  | stop
  | pair (key literal rest : List Char)
deriving DecidableEq

/-- What is done with the pair a text begins with. -/
def pass (text : List Char) : Cutting Pass := do
  let text := text.dropWhile (· = ' ')
  if keyEnd text = 0 then return .stop
  else
    let marks ← .behind (keyEnd text) text
    if [':', '"'].isPrefixOf marks then
      let key ← .before (keyEnd text) text
      let text ← .behind (keyEnd text + 1) text
      match ← takeLiteral text with
      | none => return .stop
      | some (literal, rest) => return .pair key literal rest
    else return .stop

theorem sound_pass (text : List Char) : (pass text).Sound := by
  refine .ite (.pure _) (.bind (.behind _ _) fun marks => .ite ?_ (.pure _))
  refine .bind (.before _ _) fun key => .bind (.behind _ _) fun text => ?_
  refine .bind (sound_takeLiteral text) fun literal => ?_
  cases literal with
  | none => exact .pure _
  | some literal => exact .pure _

theorem isPrefixOf_marks_iff {marks : List Char} :
    [':', '"'].isPrefixOf marks = true ↔ ∃ text, marks = ':' :: '"' :: text := by
  rw [List.isPrefixOf_iff_prefix]
  exact ⟨fun ⟨text, h⟩ => ⟨text, h.symm⟩, fun ⟨text, h⟩ => ⟨text, h.symm⟩⟩

/-- A pass takes the first pair off. -/
theorem result_pass (text : List Char) :
    (pass text).result = some (match firstPair? text with
      | none => .stop
      | some (key, body, rest) => .pair key ('"' :: body ++ ['"']) rest) := by
  rw [pass, firstPair?]
  generalize text.dropWhile (· = ' ') = text
  have htext : text.takeWhile isKeyChar ++ text.dropWhile isKeyChar = text :=
    List.takeWhile_append_dropWhile
  have hkeyEnd : keyEnd text = (utf8 (text.takeWhile isKeyChar)).length := rfl
  simp only [hkeyEnd]
  generalize text.takeWhile isKeyChar = key at htext ⊢
  generalize text.dropWhile isKeyChar = marks at htext ⊢
  subst htext
  -- The index of the end of the key is zero only if there is no key.
  have hkey : (utf8 key).length = 0 ↔ key = [] := by
    rw [List.length_eq_zero_iff]
    exact ⟨fun h => utf8_injective h, fun h => h ▸ rfl⟩
  by_cases hmarks : ∃ text, marks = ':' :: '"' :: text
  · rcases hmarks with ⟨text, rfl⟩
    by_cases hempty : key = []
    · rw [if_pos (hkey.mpr hempty), hempty]
      rfl
    · have hbehind : (Cutting.behind ((utf8 key).length + 1) (key ++ ':' :: '"' :: text)).result =
          some ('"' :: text) := by
        -- The colon is one byte.
        have hcolon : (utf8 key).length + 1 = (utf8 (key ++ [':'])).length := by
          rw [utf8_append, List.length_append]
          rfl
        have htext : key ++ ':' :: '"' :: text = (key ++ [':']) ++ '"' :: text := by
          rw [List.append_assoc, List.singleton_append]
        rw [hcolon, htext, Cutting.result_behind]
      have hkeep : ¬key.isEmpty = true := by
        rwa [List.isEmpty_iff]
      rw [if_neg (hkey.not.mpr hempty), Cutting.result_bind, Cutting.result_behind,
        Option.bind_some, if_pos (isPrefixOf_marks_iff.mpr ⟨text, rfl⟩), Cutting.result_bind,
        Cutting.result_before, Option.bind_some, Cutting.result_bind, hbehind, Option.bind_some,
        Cutting.result_bind, result_takeLiteral]
      simp only [if_neg hkeep]
      cases untilQuote '"' '\\' false text with
      | none => rfl
      | some value => rfl
  · -- Without the two marks there is no pair, whatever the key is.
    refine Eq.trans (b := some Pass.stop) ?_ ?_
    · by_cases hempty : (utf8 key).length = 0
      · rw [if_pos hempty]
        rfl
      · rw [if_neg hempty, Cutting.result_bind, Cutting.result_behind, Option.bind_some,
          if_neg (isPrefixOf_marks_iff.not.mpr hmarks)]
        rfl
    · split
      · rfl
      · next hpair =>
        split at hpair
        · next text => exact absurd ⟨text, rfl⟩ hmarks
        · contradiction

/-- A pass cuts at valid places only. -/
theorem valid_of_mem_cuts_pass (text : List Char) : ∀ c ∈ (pass text).cuts, c.Valid := by
  -- There is a result for every text, which says that all the cuts could be made.
  refine sound_pass text ?_
  rw [result_pass]
  rfl

theorem firstPair?_of_pass {text key literal rest : List Char}
    (h : (pass text).result = some (.pair key literal rest)) :
    ∃ body, firstPair? text = some (key, body, rest) ∧ literal = '"' :: body ++ ['"'] := by
  rw [result_pass, Option.some.injEq] at h
  split at h
  · contradiction
  · next body _ hpair =>
    obtain ⟨rfl, rfl, rfl⟩ := Pass.pair.inj h
    exact ⟨body, hpair, rfl⟩

/-- What a pass leaves is shorter by the key, the colon and the two quotes at least. -/
theorem length_of_pass {text key literal rest : List Char}
    (h : (pass text).result = some (.pair key literal rest)) :
    (bytes rest).length + ((bytes key).length + 3) ≤ (bytes text).length := by
  rcases firstPair?_of_pass h with ⟨body, hpair, -⟩
  have htext := congrArg (fun text => (utf8 text).length) (eq_of_firstPair? hpair)
  simp only [utf8_append, utf8_cons, List.length_append, String.length_utf8EncodeChar] at htext
  -- The colon and the two quotes take a byte each.
  have hcolon := Char.utf8Size_pos ':'
  have hquote := Char.utf8Size_pos '"'
  simp only [bytes_eq_utf8]
  omega

theorem firstPair?_key_ne_nil {text key body rest : List Char}
    (h : firstPair? text = some (key, body, rest)) : key ≠ [] := by
  rw [firstPair?] at h
  split at h
  · split_ifs at h with hempty
    rcases Option.map_eq_some_iff.mp h with ⟨⟨body, rest⟩, -, heq⟩
    obtain ⟨rfl, -⟩ := Prod.mk.inj heq
    rwa [List.isEmpty_iff] at hempty
  · contradiction

/-! ## The lookup -/

/-- What a lookup does: the texts that its passes begin with, the cuts that they make, and
    what is found. -/
structure Run where
  passes : List (List Char)
  cuts : List Cut
  result : Option (Option String)

/-- The passes of a lookup. -/
def run (key text : List Char) : Run :=
  match _h : (pass text).result with
  | none => ⟨[text], (pass text).cuts, none⟩
  | some .stop => ⟨[text], (pass text).cuts, some none⟩
  | some (.pair name literal rest) =>
    if name = key then
      ⟨[text], (pass text).cuts, some ((Json.readQuoted? literal).map String.ofList)⟩
    else
      let more := run key rest
      ⟨text :: more.passes, (pass text).cuts ++ more.cuts, more.result⟩
termination_by (bytes text).length
decreasing_by
  have hlength := length_of_pass _h
  omega

section Run

variable (key tag : List Char)

theorem valid_of_mem_cuts_run : ∀ c ∈ (run key tag).cuts, c.Valid := by
  fun_induction run key tag with
  | case1 text | case2 text | case3 text => exact valid_of_mem_cuts_pass text
  | case4 text name literal rest _ _ more ih =>
    exact List.forall_mem_append.mpr ⟨valid_of_mem_cuts_pass text, ih⟩

theorem result_run : (run key tag).result = some (lookup key tag) := by
  fun_induction run key tag with
  | case1 text hpass =>
    rw [result_pass] at hpass
    contradiction
  | case2 text hpass =>
    rw [result_pass, Option.some.injEq] at hpass
    split at hpass
    · next hpair => rw [lookup_eq, hpair, Option.bind_none]
    · contradiction
  | case3 text literal rest hpass =>
    rcases firstPair?_of_pass hpass with ⟨body, hpair, rfl⟩
    rw [lookup_eq, hpair, Option.bind_some]
    exact congrArg some (if_pos rfl).symm
  | case4 text name literal rest hpass hname more ih =>
    -- Another key came first, so the lookup goes on behind its pair.
    rcases firstPair?_of_pass hpass with ⟨body, hpair, -⟩
    rw [lookup_eq, hpair, Option.bind_some]
    exact ih.trans (congrArg some (if_neg hname).symm)

/-- Every pass but the last one takes four bytes off, since no key is empty. -/
theorem length_passes_run : 4 * (run key tag).passes.length ≤ (bytes tag).length + 4 := by
  fun_induction run key tag with
  | case1 text | case2 text | case3 text => exact Nat.le_add_left _ _
  | case4 text name literal rest hpass _ more ih =>
    rcases firstPair?_of_pass hpass with ⟨body, hpair, -⟩
    have hlength := length_of_pass hpass
    have hname : 0 < (bytes name).length := by
      have hle := length_le_length_utf8 name
      have hpos := List.length_pos_iff.mpr (firstPair?_key_ne_nil hpair)
      exact Nat.lt_of_lt_of_le hpos hle
    have hmore : 4 * more.passes.length ≤ (bytes rest).length + 4 := ih
    rw [List.length_cons]
    omega

end Run

/-- A lookup cuts only within the text and between characters, so it never fails, and what
    it finds is what the program finds. What is left shrinks with every pass by the key, the
    colon and the two quotes at least, and since no key is empty the number of passes is
    limited. -/
theorem run_cuts (key tag : List Char) :
    (∀ c ∈ (run key tag).cuts, c.Valid) ∧ (run key tag).result = some (lookup key tag) ∧
      (∀ text name literal rest, (pass text).result = some (.pair name literal rest) →
        (bytes rest).length + ((bytes name).length + 3) ≤ (bytes text).length) ∧
      4 * (run key tag).passes.length ≤ (bytes tag).length + 4 :=
  ⟨valid_of_mem_cuts_run key tag, result_run key tag, fun _ _ _ _ => length_of_pass,
    length_passes_run key tag⟩

/-- A backslash in front of a letter of two bytes. The scan goes on inside the letter, and
    the value is cut behind its quote all the same. -/
theorem run_cuts_protected_letter :
    (⟨"\"\\é\"".toList, 5⟩ ∈ (run ['k'] "d:\"\\é\"".toList).cuts ∧
        Cut.Valid ⟨"\"\\é\"".toList, 5⟩) ∧
      (pass "d:\"\\é\"".toList).result = some (.pair ['d'] "\"\\é\"".toList []) ∧
      (bytes []).length + ((bytes ['d']).length + 3) ≤ (bytes "d:\"\\é\"".toList).length := by
  have hcut : ⟨"\"\\é\"".toList, 5⟩ ∈ (run ['k'] "d:\"\\é\"".toList).cuts := by
    decide +kernel
  have hpass : (pass "d:\"\\é\"".toList).result =
      some (.pair ['d'] "\"\\é\"".toList []) := by
    decide +kernel
  rcases run_cuts ['k'] "d:\"\\é\"".toList with ⟨hvalid, -, hshorter, -⟩
  exact ⟨⟨hcut, hvalid _ hcut⟩, hpass, hshorter _ _ _ _ hpass⟩

end StructTag

end Go

end FunctionalOptions
