import FunctionalOptions.Proofs.Tags.Dialects
import FunctionalOptions.Proofs.Tags.Scan

/-!
# The Lookup of the Language

Tags have a reader in the library of the language, and `StructTag.lookup` is meant to find
what that one finds. It works on bytes throughout and decodes a value as a string literal
of the language. Here it is beside `StructTag.lookup`, with the question when the two
agree.

They find the same literal in every tag. Both take the tag apart into pairs in the same
way and give up at the same place, and that the one counts bytes where the other counts
characters makes no difference.

They do not decode it alike, since `StructTag.lookup` decodes it as a string of the data
format. When both get a value it is the same value. But a literal can be one in only one
of the two notations, if it has a piece that the other one lacks, and then one of the two
finds nothing. These are the only tags on which they differ.

## Main definitions

* `Reflect.lookup`: The value of a key by the rules of the language.
* `Reflect.Foreign`: A literal in one of the two notations only.

## Theorems

* `Reflect.firstPair?_utf8`, `Reflect.lookup_utf8`: Both find the same literal.
* `Reflect.eq_utf8_of_readBody?`: Both decode it to the same, if to anything.
* `Reflect.lookup_agrees_iff`: When the two lookups agree.
* `Reflect.lookup_hyphen_by_number`: A tag on which they differ.
-/

namespace FunctionalOptions

namespace Go

namespace Reflect

open Literal (Piece)

/-! ## The lookup -/

/-- The byte can be part of a key. -/
def isKeyByte (b : UInt8) : Bool :=
  0x20 < b && b ≠ 0x3A && b ≠ 0x22 && b ≠ 0x7F

/-- What a literal stands for, when its body is put between quotes. -/
def readBody? (body : List Char) : Option (List UInt8) :=
  match readQuoted (body ++ ['"']) with
  | some (value, []) => some value
  | _ => none

/-- What the bytes between two quotes stand for. -/
def unquote? (body : List UInt8) : Option (List UInt8) :=
  (String.fromUTF8? body.toByteArray).bind fun body => readBody? body.toList

/-- The key and the literal that a tag begins with, the literal without its quotes, and what
    follows them. -/
def firstPair? (tag : List UInt8) : Option (List UInt8 × List UInt8 × List UInt8) :=
  let tag := tag.dropWhile (· = 0x20)
  match tag.dropWhile isKeyByte with
  | 0x3A :: 0x22 :: text =>
    if (tag.takeWhile isKeyByte).isEmpty then none
    else (StructTag.untilQuote 0x22 0x5C false text).map fun (body, rest) =>
      (tag.takeWhile isKeyByte, body, rest)
  | _ => none

/-- What follows a pair is shorter than the tag. -/
theorem firstPair?_length {tag key body rest : List UInt8}
    (h : firstPair? tag = some (key, body, rest)) : rest.length < tag.length := by
  rw [firstPair?] at h
  split at h
  · next text htext =>
    split_ifs at h with hempty
    rcases Option.map_eq_some_iff.mp h with ⟨⟨body, rest⟩, hbody, heq⟩
    obtain ⟨rfl, rfl, rfl⟩ := heq
    -- The tag is the spaces, the key, two marks, the body, a quote and the rest.
    have hbody := congrArg List.length (StructTag.untilQuote_append hbody)
    have htext := congrArg List.length htext
    have hkey := (List.dropWhile_sublist (l := tag.dropWhile (· = 0x20)) isKeyByte).length_le
    have hspaces := (List.dropWhile_sublist (l := tag) (· = 0x20)).length_le
    simp only [List.length_append, List.length_cons] at hbody htext
    omega
  · contradiction

/-- The value of a key: that of its first pair, decoded. There is none when the tag stops
    being a list of pairs before the key comes up, or when the value is no literal. -/
def lookup (key tag : List UInt8) : Option (List UInt8) :=
  match _h : firstPair? tag with
  | none => none
  | some (name, body, rest) => if name = key then unquote? body else lookup key rest
termination_by tag.length
decreasing_by exact firstPair?_length _h

theorem lookup_eq (key tag : List UInt8) :
    lookup key tag = (firstPair? tag).bind fun (name, body, rest) =>
      if name = key then unquote? body else lookup key rest := by
  rw [lookup]
  split <;> simp [*]

/-! ## Texts -/

/-- The bytes of a body stand for what the body does. -/
theorem unquote?_utf8 (body : List Char) : unquote? (utf8 body) = readBody? body := by
  rw [unquote?, fromUTF8?_utf8, Option.bind_some, String.toList_ofList]

theorem isKeyByte_eq (c : Char) :
    ∀ b ∈ String.utf8EncodeChar c, isKeyByte b = StructTag.isKeyChar c := by
  -- Below 128 the byte is the character. Beyond it neither is a mark or a control character.
  refine forall_mem_utf8EncodeChar true (by decide) ?_ ?_ c
  · intro c hc
    have hcolon : c ≠ ':' := by
      rintro rfl
      exact absurd hc (by decide)
    have hquote : c ≠ '"' := by
      rintro rfl
      exact absurd hc (by decide)
    rw [StructTag.isKeyChar, decide_eq_false hcolon, decide_eq_false hquote,
      decide_eq_false (by omega), decide_eq_false (by omega)]
    rfl
  · intro b hb
    have hlt : 0x20 < b := UInt8.lt_iff_toNat_lt.mpr (Nat.lt_of_lt_of_le (by decide) hb)
    have hne (m : UInt8) (hm : m.toNat < 0x80) : b ≠ m := by
      rintro rfl
      exact absurd hm (Nat.not_lt_of_le hb)
    rw [isKeyByte, decide_eq_true hlt, decide_eq_true (hne 0x3A (by decide)),
      decide_eq_true (hne 0x22 (by decide)), decide_eq_true (hne 0x7F (by decide))]
    rfl

theorem isSpaceByte_eq (c : Char) :
    ∀ b ∈ String.utf8EncodeChar c, decide (b = 0x20) = decide (c = ' ') := by
  refine forall_mem_utf8EncodeChar (p := fun c => decide (c = ' '))
    (q := fun b => decide (b = 0x20)) false (by decide) ?_ ?_ c
  · intro c hc
    refine decide_eq_false ?_
    rintro rfl
    exact absurd hc (by decide)
  · intro b hb
    refine decide_eq_false ?_
    rintro rfl
    exact absurd hb (by decide)

/-- The first pair of a text is that of its bytes. -/
theorem firstPair?_utf8 (tag : List Char) :
    firstPair? (utf8 tag) = (StructTag.firstPair? tag).map fun (name, body, rest) =>
      (utf8 name, utf8 body, utf8 rest) := by
  rw [firstPair?, StructTag.firstPair?]
  simp only [(takeWhile_utf8 isSpaceByte_eq tag).2]
  -- Spaces and keys can be taken off before or after the text is encoded.
  generalize tag.dropWhile (fun c => decide (c = ' ')) = tag
  simp only [(takeWhile_utf8 isKeyByte_eq tag).1, (takeWhile_utf8 isKeyByte_eq tag).2]
  generalize tag.takeWhile StructTag.isKeyChar = name
  have hempty : (utf8 name).isEmpty = name.isEmpty := by
    cases name with
    | nil => rfl
    | cons c name =>
        rw [utf8_cons, List.isEmpty_cons, List.isEmpty_eq_false_iff]
        exact List.append_ne_nil_of_left_ne_nil (utf8EncodeChar_ne_nil c) _
  rw [hempty]
  split
  · next text htext =>
    -- The colon and the quote are characters of the text.
    rcases exists_of_utf8_eq_cons (by decide) htext with ⟨more, htag, hmore⟩
    rcases exists_of_utf8_eq_cons (by decide) hmore.symm with ⟨text, rfl, rfl⟩
    have htag : tag.dropWhile StructTag.isKeyChar = ':' :: '"' :: text := htag
    simp only [htag, StructTag.untilQuote_utf8]
    split_ifs with hname
    · rfl
    · rw [Option.map_map, Option.map_map]
      rfl
  · next hnone =>
    split
    · next text htext =>
      rw [htext] at hnone
      exact absurd rfl (hnone (utf8 text))
    · rfl

/-- The lookup in a text finds the literal of the key and decodes it. -/
theorem lookup_utf8 (key tag : List Char) :
    lookup (utf8 key) (utf8 tag) = (StructTag.literal? key tag).bind readBody? := by
  fun_induction StructTag.literal? key tag with
  | case1 tag hpair => rw [lookup_eq, firstPair?_utf8, hpair]; rfl
  | case2 tag body rest hpair =>
    rw [lookup_eq, firstPair?_utf8, hpair, Option.bind_some, ← unquote?_utf8]
    exact if_pos rfl
  | case3 tag name body rest hpair hname ih =>
    rw [lookup_eq, firstPair?_utf8, hpair, ← ih]
    exact if_neg fun hbytes => hname (utf8_injective hbytes)

/-! ## Bodies in two notations -/

section Body

variable {body : List Char} {ps : List Piece}

theorem readBody?_eq_some_iff {value : List UInt8} :
    readBody? body = some value ↔
      ∃ (ps : List Piece) (values : List (List UInt8)), body = ps.flatMap Piece.text ∧
        List.Forall₂ (fun p value => p.bytes? = some value) ps values ∧
          value = values.flatten := by
  have hread : readBody? body = some value ↔ readQuoted (body ++ ['"']) = some (value, []) := by
    unfold readBody?
    split
    · next h => rw [h, Option.some.injEq, Option.some.injEq, Prod.mk.injEq, eq_self, and_true]
    · next h => exact iff_of_false (Option.some_ne_none value).symm (h value)
  rw [hread, Literal.readQuoted_eq_some_iff]
  simp only [List.append_cancel_right_eq]

/-- A body that is read in both notations stands for the same in both. -/
theorem eq_utf8_of_readBody? {value : String} {bytes : List UInt8}
    (h : StructTag.readBody? body = some value) (h' : readBody? body = some bytes) :
    bytes = utf8 value.toList := by
  rcases StructTag.readBody?_eq_some_iff.mp h with ⟨ps, rfl, hchars⟩
  rcases readBody?_eq_some_iff.mp h' with ⟨qs, values, hqs, hbytes, rfl⟩
  -- The pieces of both readings are the same ones.
  obtain rfl := Literal.pieces_unique (fun p hp => Or.inl (Literal.isSome_of_forall₂ hchars p hp))
    (fun q hq => Or.inr (Literal.isSome_of_forall₂ hbytes q hq)) hqs
  exact Literal.flatten_eq_utf8 hchars hbytes

/-- Whether a body is read in the data format is up to each of its pieces. -/
theorem isSome_char?_iff (hps : ∀ p ∈ ps, p.Legal) :
    (StructTag.readBody? (ps.flatMap Piece.text)).isSome ↔ ∀ p ∈ ps, p.char?.isSome := by
  rw [Option.isSome_iff_exists]
  constructor
  · rintro ⟨value, h⟩
    rcases StructTag.readBody?_eq_some_iff.mp h with ⟨qs, hqs, hchars⟩
    have hall := Literal.isSome_of_forall₂ hchars
    rwa [Literal.pieces_unique hps (fun q hq => Or.inl (hall q hq)) hqs]
  · intro hall
    rcases Literal.exists_forall₂ hall with ⟨text, hchars⟩
    refine ⟨String.ofList text, StructTag.readBody?_eq_some_iff.mpr ⟨ps, rfl, ?_⟩⟩
    rwa [String.toList_ofList]

/-- So it is in the language. -/
theorem isSome_bytes?_iff (hps : ∀ p ∈ ps, p.Legal) :
    (readBody? (ps.flatMap Piece.text)).isSome ↔ ∀ p ∈ ps, p.bytes?.isSome := by
  rw [Option.isSome_iff_exists]
  constructor
  · rintro ⟨value, h⟩
    rcases readBody?_eq_some_iff.mp h with ⟨qs, values, hqs, hbytes, -⟩
    have hall := Literal.isSome_of_forall₂ hbytes
    rwa [Literal.pieces_unique hps (fun q hq => Or.inr (hall q hq)) hqs]
  · intro hall
    rcases Literal.exists_forall₂ hall with ⟨values, hbytes⟩
    exact ⟨values.flatten, readBody?_eq_some_iff.mpr ⟨ps, values, rfl, hbytes, rfl⟩⟩

/-- A literal of the data format is one of the language, unless it has a piece that is not. -/
theorem exists_jsonOnly_iff (h : ∀ p ∈ ps, p.char?.isSome) :
    (∃ p ∈ ps, p.jsonOnly) ↔ readBody? (ps.flatMap Piece.text) = none := by
  rw [← Option.not_isSome_iff_eq_none, isSome_bytes?_iff fun p hp => Or.inl (h p hp)]
  simp only [not_forall, exists_prop, Option.not_isSome_iff_eq_none]
  refine exists_congr fun p => and_congr_right fun hp => ?_
  -- Piece by piece it is known which of them the language does not have.
  rcases Option.isSome_iff_exists.mp (h p hp) with ⟨c, hc⟩
  exact (Literal.bytes?_eq_none_iff hc).symm

theorem exists_goOnly_iff (h : ∀ p ∈ ps, p.bytes?.isSome) :
    (∃ p ∈ ps, p.goOnly) ↔ StructTag.readBody? (ps.flatMap Piece.text) = none := by
  rw [← Option.not_isSome_iff_eq_none, isSome_char?_iff fun p hp => Or.inr (h p hp)]
  simp only [not_forall, exists_prop, Option.not_isSome_iff_eq_none]
  refine exists_congr fun p => and_congr_right fun hp => ?_
  rcases Option.isSome_iff_exists.mp (h p hp) with ⟨bytes, hbytes⟩
  exact (Literal.char?_eq_none_iff hbytes).symm

/-- The body is a literal in one of the two notations only. -/
def Foreign (body : List Char) : Prop :=
  ∃ ps : List Piece, body = ps.flatMap Piece.text ∧
    ((∀ p ∈ ps, p.char?.isSome) ∧ (∃ p ∈ ps, p.jsonOnly) ∨
      (∀ p ∈ ps, p.bytes?.isSome) ∧ ∃ p ∈ ps, p.goOnly)

/-- The foreign bodies are those that are read in one notation and not in the other. -/
theorem foreign_iff :
    Foreign body ↔ (StructTag.readBody? body).isSome ≠ (readBody? body).isSome := by
  constructor
  · rintro ⟨ps, rfl, ⟨hall, honly⟩ | ⟨hall, honly⟩⟩
    · rw [(isSome_char?_iff fun p hp => Or.inl (hall p hp)).mpr hall,
        (exists_jsonOnly_iff hall).mp honly]
      exact Bool.noConfusion
    · rw [(isSome_bytes?_iff fun p hp => Or.inr (hall p hp)).mpr hall,
        (exists_goOnly_iff hall).mp honly]
      exact Bool.noConfusion
  · -- The pieces are those of the reading that there is.
    intro hne
    cases hjson : StructTag.readBody? body with
    | some value =>
        rcases StructTag.readBody?_eq_some_iff.mp hjson with ⟨ps, rfl, hchars⟩
        have hall := Literal.isSome_of_forall₂ hchars
        have hgo : readBody? (ps.flatMap Piece.text) = none := by
          rw [hjson, Option.isSome_some] at hne
          exact Option.not_isSome_iff_eq_none.mp hne.symm
        exact ⟨ps, rfl, Or.inl ⟨hall, (exists_jsonOnly_iff hall).mpr hgo⟩⟩
    | none =>
        cases hgo : readBody? body with
        | none =>
            rw [hjson, hgo] at hne
            exact absurd rfl hne
        | some bytes =>
            rcases readBody?_eq_some_iff.mp hgo with ⟨ps, values, rfl, hvalues, -⟩
            have hall := Literal.isSome_of_forall₂ hvalues
            exact ⟨ps, rfl, Or.inr ⟨hall, (exists_goOnly_iff hall).mpr hjson⟩⟩

/-- The two notations agree on a body exactly if it is not foreign. -/
theorem readBody?_eq_map_iff :
    readBody? body = (StructTag.readBody? body).map (utf8 ·.toList) ↔ ¬Foreign body := by
  rw [foreign_iff, not_not]
  constructor
  · intro h
    rw [h, Option.isSome_map]
  · intro h
    cases hjson : StructTag.readBody? body with
    | none =>
        rw [hjson, Option.isSome_none] at h
        exact Option.isNone_iff_eq_none.mp (Option.isSome_eq_false_iff.mp h.symm)
    | some value =>
        rw [hjson, Option.isSome_some] at h
        -- Both read it, and then what they read is the same.
        rcases Option.isSome_iff_exists.mp h.symm with ⟨bytes, hbytes⟩
        rw [hbytes, eq_utf8_of_readBody? hjson hbytes]
        rfl

end Body

/-! ## The two lookups -/

/-- Where both lookups find a value it is the same, and they agree on a tag exactly if the
    literal of the key is not foreign. -/
theorem lookup_agrees_iff (key tag : List Char) :
    (∀ value bytes, StructTag.lookup key tag = some value →
        lookup (utf8 key) (utf8 tag) = some bytes → bytes = utf8 value.toList) ∧
      (lookup (utf8 key) (utf8 tag) = (StructTag.lookup key tag).map (utf8 ·.toList) ↔
        ∀ body, StructTag.literal? key tag = some body → ¬Foreign body) := by
  rw [lookup_utf8, StructTag.lookup_eq_bind]
  -- Both find the same literal, if any, so all depends on how it is decoded.
  cases StructTag.literal? key tag with
  | none =>
      refine ⟨fun value bytes h => ?_, fun _ body h => ?_, fun _ => rfl⟩
      · contradiction
      · contradiction
  | some body =>
      refine ⟨fun value bytes => eq_utf8_of_readBody?, ?_⟩
      rw [Option.bind_some, Option.bind_some, readBody?_eq_map_iff]
      constructor
      · rintro h body' heq
        rwa [← Option.some.inj heq]
      · exact fun h => h body rfl

/-- A hyphen that is written by the number of its byte is one in the language only. -/
theorem lookup_hyphen_by_number :
    lookup (utf8 StructTag.key.toList) (utf8 "gooptions:\"\\x2d\"".toList) = some (utf8 ['-']) ∧
      StructTag.lookup StructTag.key.toList "gooptions:\"\\x2d\"".toList = none := by
  have hliteral : StructTag.literal? StructTag.key.toList "gooptions:\"\\x2d\"".toList =
      some ([Piece.byte ['2', 'd']].flatMap Piece.text) :=
    StructTag.literal?_of_firstPair? (by decide :
      StructTag.firstPair? "gooptions:\"\\x2d\"".toList =
        some (StructTag.key.toList, ['\\', 'x', '2', 'd'], []))
  have hall : ∀ p ∈ [Piece.byte ['2', 'd']], p.bytes?.isSome := by decide
  rw [lookup_utf8, StructTag.lookup_eq_bind, hliteral, Option.bind_some, Option.bind_some]
  refine ⟨readBody?_eq_some_iff.mpr ⟨[.byte ['2', 'd']], [[0x2D]], rfl, ?_, rfl⟩,
    (exists_goOnly_iff hall).mp ⟨_, List.mem_cons_self, rfl⟩⟩
  exact .cons rfl .nil

end Reflect

end Go

end FunctionalOptions
