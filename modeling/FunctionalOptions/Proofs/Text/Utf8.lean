import Mathlib.Data.List.Basic

/-!
# Bytes of Texts

Texts are read by characters here and by bytes elsewhere. The two readings agree as long
as only ASCII has a meaning, which is what UTF-8 was made for: an ASCII character is one
byte below 128, and all bytes of another character are 128 or more.

## Main definitions

* `utf8`: The bytes of a text.

## Theorems

* `fromUTF8?_toUTF8`: A text is decoded from its bytes.
* `utf8_injective`: No two texts have the same bytes.
* `utf8EncodeChar_ascii`, `le_of_mem_utf8EncodeChar`: The bytes of a character.
* `takeWhile_utf8`: Runs of bytes are the bytes of runs of characters.
-/

namespace FunctionalOptions

/-- A text is decoded from its bytes. -/
theorem fromUTF8?_toUTF8 (text : String) : String.fromUTF8? text.toUTF8 = some text := by
  rw [String.toUTF8, String.fromUTF8?, dif_pos text.isValidUTF8]
  exact congrArg some (String.toByteArray_inj.mp rfl)

namespace Go

/-- The bytes of a text. -/
def utf8 (text : List Char) : List UInt8 :=
  text.flatMap String.utf8EncodeChar

theorem utf8_cons (c : Char) (text : List Char) :
    utf8 (c :: text) = String.utf8EncodeChar c ++ utf8 text :=
  List.flatMap_cons

theorem utf8_append (text more : List Char) : utf8 (text ++ more) = utf8 text ++ utf8 more :=
  List.flatMap_append

theorem toByteArray_ofList (text : List Char) :
    (String.ofList text).toByteArray = (utf8 text).toByteArray :=
  String.toByteArray_ofList

/-- No two texts have the same bytes. -/
theorem utf8_injective {text other : List Char} (h : utf8 text = utf8 other) : text = other := by
  -- Strings are given by their bytes.
  refine String.ofList_injective (String.toByteArray_inj.mp ?_)
  rw [toByteArray_ofList, toByteArray_ofList, h]

/-- The bytes of a text are decoded to it. -/
theorem fromUTF8?_utf8 (text : List Char) :
    String.fromUTF8? (utf8 text).toByteArray = some (String.ofList text) := by
  rw [← toByteArray_ofList]
  exact fromUTF8?_toUTF8 _

/-- A text has at least as many bytes as characters. -/
theorem length_le_length_utf8 (text : List Char) : text.length ≤ (utf8 text).length := by
  induction text with
  | nil => exact Nat.le_refl _
  | cons c text ih =>
      have hc := Char.utf8Size_pos c
      rw [utf8_cons, List.length_append, List.length_cons, String.length_utf8EncodeChar]
      omega

/-! ## Bytes of a character -/

/-- An ASCII character is one byte. -/
theorem utf8EncodeChar_ascii {c : Char} (h : c.toNat < 0x80) :
    String.utf8EncodeChar c = [c.toNat.toUInt8] := by
  have hval : c.val.toNat ≤ 127 := Nat.le_of_lt_succ h
  simp only [String.utf8EncodeChar, if_pos hval]
  rfl

/-- All bytes of another character are beyond ASCII. -/
theorem le_of_mem_utf8EncodeChar {c : Char} (h : 0x80 ≤ c.toNat) :
    ∀ b ∈ String.utf8EncodeChar c, 0x80 ≤ b.toNat := by
  have hval : ¬c.val.toNat ≤ 127 := Nat.not_le_of_lt h
  intro b hb
  unfold String.utf8EncodeChar at hb
  -- Every byte is a remainder with a mark of 128 or more on top.
  simp only [if_neg hval] at hb
  split_ifs at hb
  all_goals
    simp only [List.mem_cons, List.not_mem_nil, or_false] at hb
    rcases hb with rfl | rfl | rfl | rfl
    all_goals
      simp only [UInt8.toNat_ofNat']
      omega

theorem utf8EncodeChar_ne_nil (c : Char) : String.utf8EncodeChar c ≠ [] := by
  rw [← List.length_pos_iff, String.length_utf8EncodeChar]
  exact Char.utf8Size_pos c

/-- So are the bytes behind the first one of any character. -/
theorem le_of_mem_tail_utf8EncodeChar {c : Char} :
    ∀ b ∈ (String.utf8EncodeChar c).tail, 0x80 ≤ b.toNat := by
  intro b hb
  by_cases hc : c.toNat < 0x80
  · rw [utf8EncodeChar_ascii hc] at hb
    exact absurd hb List.not_mem_nil
  · exact le_of_mem_utf8EncodeChar (Nat.le_of_not_lt hc) b (List.mem_of_mem_tail hb)

/-- What begins with an ASCII byte begins with its character. -/
theorem exists_of_utf8_eq_cons {text : List Char} {b : UInt8} {rest : List UInt8}
    (hb : b.toNat < 0x80) (h : utf8 text = b :: rest) :
    ∃ more, text = Char.ofNat b.toNat :: more ∧ rest = utf8 more := by
  cases text with
  | nil => contradiction
  | cons c more =>
      rw [utf8_cons] at h
      by_cases hc : c.toNat < 0x80
      · rw [utf8EncodeChar_ascii hc] at h
        obtain ⟨rfl, rfl⟩ := List.cons.inj h
        have htoNat : c.toNat.toUInt8.toNat = c.toNat :=
          Nat.mod_eq_of_lt (Nat.lt_of_lt_of_le hc (by decide))
        exact ⟨more, by rw [htoNat, Char.ofNat_toNat], rfl⟩
      · cases hbytes : String.utf8EncodeChar c with
        | nil => exact absurd hbytes (utf8EncodeChar_ne_nil c)
        | cons first others =>
            rw [hbytes] at h
            have hfirst := le_of_mem_utf8EncodeChar (Nat.le_of_not_lt hc) b
              (hbytes ▸ (List.cons.inj h).1 ▸ List.mem_cons_self)
            exact absurd hb (Nat.not_lt_of_le hfirst)

/-- A class of bytes is a class of characters if it is that in ASCII and takes all the other
    characters alike. -/
theorem forall_mem_utf8EncodeChar {p : Char → Bool} {q : UInt8 → Bool} (others : Bool)
    (hascii : ∀ n < 0x80, q n.toUInt8 = p (Char.ofNat n))
    (hchars : ∀ c : Char, 0x80 ≤ c.toNat → p c = others)
    (hbytes : ∀ b : UInt8, 0x80 ≤ b.toNat → q b = others) (c : Char) :
    ∀ b ∈ String.utf8EncodeChar c, q b = p c := by
  intro b hb
  by_cases hc : c.toNat < 0x80
  · rw [utf8EncodeChar_ascii hc, List.mem_singleton] at hb
    rw [hb, hascii _ hc, Char.ofNat_toNat]
  · have hc := Nat.le_of_not_lt hc
    rw [hchars c hc, hbytes b (le_of_mem_utf8EncodeChar hc b hb)]

/-- The longest run of bytes of a class is that of characters of the class. -/
theorem takeWhile_utf8 {p : Char → Bool} {q : UInt8 → Bool}
    (h : ∀ c, ∀ b ∈ String.utf8EncodeChar c, q b = p c) (text : List Char) :
    (utf8 text).takeWhile q = utf8 (text.takeWhile p) ∧
      (utf8 text).dropWhile q = utf8 (text.dropWhile p) := by
  induction text with
  | nil => exact ⟨rfl, rfl⟩
  | cons c text ih =>
      rw [utf8_cons]
      cases hc : p c with
      | true =>
          have hrun : ∀ b ∈ String.utf8EncodeChar c, q b = true := fun b hb => (h c b hb).trans hc
          rw [List.takeWhile_append_of_pos hrun, List.dropWhile_append_of_pos hrun, ih.1, ih.2,
            List.takeWhile_cons_of_pos hc, List.dropWhile_cons_of_pos hc, utf8_cons]
          exact ⟨rfl, rfl⟩
      | false =>
          -- The first byte of the character ends the run.
          have hstop : ¬p c = true := by
            rw [hc]
            exact Bool.false_ne_true
          rw [List.takeWhile_cons_of_neg hstop, List.dropWhile_cons_of_neg hstop, utf8_cons]
          cases hbytes : String.utf8EncodeChar c with
          | nil => exact absurd hbytes (utf8EncodeChar_ne_nil c)
          | cons b more =>
              have hb : ¬q b = true := by
                rw [h c b (hbytes ▸ List.mem_cons_self)]
                exact hstop
              rw [List.cons_append, List.takeWhile_cons_of_neg hb, List.dropWhile_cons_of_neg hb]
              exact ⟨rfl, rfl⟩

end Go

end FunctionalOptions
