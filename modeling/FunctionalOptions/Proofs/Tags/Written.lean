import FunctionalOptions.Proofs.Tags.Scan
import FunctionalOptions.Proofs.Text.Split

/-!
# Tags That Were Written

A tag that was made from a list of pairs gives the list back. The values can be any texts,
among them texts with quotes and backslashes in them and texts that look like further
pairs, and a value can be spelled in any way that the data format has for it.

What carries this is that no piece of a literal ends the value it belongs to. A quote is
always behind a backslash, and a backslash protects what comes next and nothing more, so
an escape is passed over as a whole and the scan is back where no backslash counts. The
value ends behind its last piece, and the next pair begins there.

What the generator does with the value of its own key is said without splitting and
trimming: an option is listed if it stands between commas with white space around it.

## Main definitions

* `StructTag.IsKey`: What a key can be.
* `StructTag.Spells`: The pieces of a literal spell a value.
* `StructTag.Written`: A tag was written for a list of pairs.
* `StructTag.Lists`: A value lists an option.

## Theorems

* `StructTag.exists_spelling`: Every value has a spelling.
* `StructTag.untilQuote_pieces`: A value ends behind its pieces.
* `StructTag.Written.lookup_eq`: A key has the value of its first pair.
* `StructTag.any_isIgnoring_iff`: Which values make the generator pass over a field.
* `StructTag.read_of_written`: A tag that was written is read back.
-/

namespace FunctionalOptions

namespace Go

namespace StructTag

open Literal (Piece number? of_number?)

/-! ## Tags of pairs -/

/-- The text can be a key: it is not empty, and neither spaces nor control characters nor
    colons nor quotes are in it. -/
structure IsKey (key : String) : Prop where
  nonempty : key.toList ≠ []
  printable : ∀ c ∈ key.toList, 0x20 < c.toNat ∧ c.toNat ≠ 0x7F
  unmarked : ∀ c ∈ key.toList, c ≠ ':' ∧ c ≠ '"'

/-- The pieces spell the value as a string of the data format. -/
def Spells (ps : List Piece) (value : String) : Prop :=
  List.Forall₂ (fun p c => p.char? = some c) ps value.toList

/-- Every value is spelled by the literal that the program writes for it. -/
theorem exists_spelling (value : String) :
    ∃ ps : List Piece, (Json.writeQuoted value).toList = '"' :: (ps.flatMap Piece.text ++ ['"']) ∧
      Spells ps value := by
  -- What is written is read back, and what can be read consists of pieces.
  have hread := Json.readQuoted?_writeQuoted value
  rw [Json.writeQuoted, String.toList_ofList] at hread ⊢
  rcases (Literal.readQuoted?_eq_some_iff _ _).mp hread with ⟨ps, htext, hps⟩
  exact ⟨ps, by rw [htext, List.cons_append], hps⟩

/-- A tag that was written for a list of pairs: every key, a colon and the value between
    quotes, with any number of spaces around them. -/
inductive Written : List (String × String) → List Char → Prop
  | nil (spaces : Nat) : Written [] (List.replicate spaces ' ')
  | cons (spaces : Nat) {key value : String} {ps : List Piece} {pairs : List (String × String)}
      {tag : List Char} (hkey : IsKey key) (hvalue : Spells ps value) (htag : Written pairs tag) :
      Written ((key, value) :: pairs) (List.replicate spaces ' ' ++
        (key.toList ++ ':' :: '"' :: (ps.flatMap Piece.text ++ '"' :: tag)))

theorem isKey_iff {key : String} :
    IsKey key ↔ key.toList ≠ [] ∧ key.toList.all isKeyChar = true := by
  have hclass (c : Char) : isKeyChar c = true ↔
      (0x20 < c.toNat ∧ c.toNat ≠ 0x7F) ∧ c ≠ ':' ∧ c ≠ '"' := by
    simp only [isKeyChar, Bool.not_eq_true', Bool.or_eq_false_iff, decide_eq_false_iff_not,
      Nat.not_le]
    constructor
    · rintro ⟨⟨⟨hspace, hcolon⟩, hquote⟩, hdelete⟩
      exact ⟨⟨hspace, hdelete⟩, hcolon, hquote⟩
    · rintro ⟨⟨hspace, hdelete⟩, hcolon, hquote⟩
      exact ⟨⟨⟨hspace, hcolon⟩, hquote⟩, hdelete⟩
  rw [List.all_eq_true]
  simp only [hclass]
  exact ⟨fun h => ⟨h.nonempty, fun c hc => ⟨h.printable c hc, h.unmarked c hc⟩⟩,
    fun h => ⟨h.1, fun c hc => (h.2 c hc).1, fun c hc => (h.2 c hc).2⟩⟩

instance (key : String) : Decidable (IsKey key) :=
  decidable_of_iff _ isKey_iff.symm

/-! ## The end of a value -/

/-- An escape is passed over, the backslash with what comes next and the digits. -/
theorem untilQuote_escape (c : Char) {digits : List Char}
    (h : ∀ d ∈ digits, d ≠ '"' ∧ d ≠ '\\') (rest : List Char) :
    untilQuote '"' '\\' false ('\\' :: c :: (digits ++ rest)) =
      (untilQuote '"' '\\' false rest).map fun (value, rest) =>
        ('\\' :: c :: (digits ++ value), rest) := by
  rw [untilQuote, if_neg (by decide), decide_eq_true rfl, untilQuote, untilQuote_run h,
    Option.map_map, Option.map_map]
  rfl

theorem ne_marks_of_number? {base count n : Nat} {digits : List Char}
    (h : number? base count digits = some n) : ∀ d ∈ digits, d ≠ '"' ∧ d ≠ '\\' := by
  intro d hd
  rcases (of_number? h).2.1 d hd with ⟨digit, hdigit, -⟩
  constructor <;>
    · rintro rfl
      contradiction

/-- No piece ends a value. -/
theorem untilQuote_piece {p : Piece} {c : Char} (h : p.char? = some c) (rest : List Char) :
    untilQuote '"' '\\' false (p.text ++ rest) =
      (untilQuote '"' '\\' false rest).map fun (value, rest) => (p.text ++ value, rest) := by
  cases p with
  | plain d =>
      have hplain := (Option.ite_none_right_eq_some.mp h).1
      -- A plain character is neither of the two marks.
      exact untilQuote_run (List.forall_mem_singleton.mpr hplain.2) rest
  | letter d => exact untilQuote_escape d (List.forall_mem_nil _) rest
  | unit digits =>
      rcases Option.bind_eq_some_iff.mp h with ⟨n, hn, -⟩
      exact untilQuote_escape 'u' (ne_marks_of_number? hn) rest
  | pair leading trailing =>
      rcases Option.bind_eq_some_iff.mp h with ⟨m, hm, h⟩
      rcases Option.bind_eq_some_iff.mp h with ⟨n, hn, -⟩
      -- The halves are two escapes for the scan.
      have hsecond := untilQuote_escape 'u' (ne_marks_of_number? hn) rest
      rw [Piece.text, List.cons_append, List.cons_append, List.append_assoc,
        untilQuote_escape 'u' (ne_marks_of_number? hm), List.cons_append, List.cons_append,
        hsecond, Option.map_map]
      simp only [Function.comp_def, List.cons_append, List.append_assoc]
  | long | byte | octal => contradiction

/-- A value ends behind all of its pieces. -/
theorem untilQuote_pieces {ps : List Piece} {value : String} (h : Spells ps value)
    (rest : List Char) :
    untilQuote '"' '\\' false (ps.flatMap Piece.text ++ '"' :: rest) =
      some (ps.flatMap Piece.text, rest) := by
  unfold Spells at h
  generalize value.toList = text at h
  induction h with
  | nil => exact if_pos rfl
  | cons hp _ ih =>
      rw [List.flatMap_cons, List.append_assoc, untilQuote_piece hp, ih, Option.map_some]

/-! ## Reading back -/

/-- A tag of pairs has the value of the first pair with a key. -/
theorem Written.lookup_eq {pairs : List (String × String)} {tag : List Char}
    (h : Written pairs tag) (key : String) : lookup key.toList tag = pairs.lookup key := by
  induction h with
  | nil spaces =>
      have hspaces : ∀ c ∈ List.replicate spaces ' ', decide (c = ' ') = true := fun c hc =>
        decide_eq_true (List.eq_of_mem_replicate hc)
      -- Nothing but spaces is left, so there is no pair.
      have hnone : firstPair? (List.replicate spaces ' ') = none := by
        rw [firstPair?, List.dropWhile_eq_nil_iff.mpr hspaces]
        rfl
      rw [StructTag.lookup_eq, hnone]
      rfl
  | @cons spaces name value ps pairs tag hkey hvalue _ ih =>
      have hpair := firstPair?_spaces spaces (List.all_eq_true.mp (isKey_iff.mp hkey).2)
        hkey.nonempty (untilQuote_pieces hvalue tag)
      rw [StructTag.lookup_eq, hpair, List.lookup_cons]
      -- The pair is the one that is looked for or the lookup goes on behind it.
      by_cases hname : name = key
      · rw [hname, beq_self_eq_true]
        exact (if_pos rfl).trans (readBody?_eq_some_iff.mpr ⟨ps, rfl, hvalue⟩)
      · rw [beq_false_of_ne (Ne.symm hname), ← ih]
        exact if_neg fun hlist => hname (String.toList_inj.mp hlist)

/-! ## Options -/

/-- The value lists the option: it stands between two commas, or one of them and an end of
    the value, with nothing but white space around it. -/
def Lists (value option : String) : Prop :=
  ∃ before left right after,
    value.toList = before ++ (left ++ (option.toList ++ right) ++ after) ∧
      (∀ c ∈ left, Unicode.isWhiteSpace c) ∧ (∀ c ∈ right, Unicode.isWhiteSpace c) ∧
        (∀ c ∈ before.getLast?, c = ',') ∧ ∀ c ∈ after.head?, c = ','

theorem mem_optionsOf_iff {value option : String} (hne : option.toList ≠ []) :
    option ∈ optionsOf value ↔
      ∃ piece ∈ Text.splitAt ',' value.toList, Unicode.trim piece = option.toList := by
  unfold optionsOf
  constructor
  · intro h
    rcases List.mem_map.mp h with ⟨trimmed, htrimmed, rfl⟩
    rcases List.mem_map.mp (List.mem_filter.mp htrimmed).1 with ⟨piece, hpiece, rfl⟩
    exact ⟨piece, hpiece, String.toList_ofList.symm⟩
  · rintro ⟨piece, hpiece, htrim⟩
    refine List.mem_map.mpr ⟨option.toList, List.mem_filter.mpr
      ⟨List.mem_map.mpr ⟨piece, hpiece, htrim⟩, ?_⟩, String.ofList_toList⟩
    -- Only empty pieces are dropped.
    rw [List.isEmpty_eq_false_iff.mpr hne]
    rfl

/-- The options of a value that are single words are those that it lists. -/
theorem mem_optionsOf_iff_lists {value option : String} (hne : option.toList ≠ [])
    (hword : option.toList.all (fun c => c ≠ ',' && !Unicode.isWhiteSpace c) = true) :
    option ∈ optionsOf value ↔ Lists value option := by
  have hchars : ∀ c ∈ option.toList, c ≠ ',' ∧ Unicode.isWhiteSpace c = false := by
    simpa using hword
  have hcomma : ',' ∉ option.toList := fun h => (hchars ',' h).1 rfl
  have hhead : ∀ c ∈ option.toList.head?, Unicode.isWhiteSpace c = false := fun c hc =>
    (hchars c (List.mem_of_mem_head? hc)).2
  have hlast : ∀ c ∈ option.toList.getLast?, Unicode.isWhiteSpace c = false := fun c hc =>
    (hchars c (List.mem_of_getLast? hc)).2
  have hwhite {c : Char} (h : Unicode.isWhiteSpace c = true) : ',' ≠ c := by
    rintro rfl
    exact absurd h (by decide)
  rw [mem_optionsOf_iff hne]
  constructor
  · rintro ⟨piece, hpiece, htrim⟩
    rcases Text.mem_splitAt_iff.mp hpiece with ⟨-, before, after, hvalue, hbefore, hafter⟩
    rcases (Unicode.trim_eq_iff hne hhead hlast).mp htrim with ⟨left, right, rfl, hleft, hright⟩
    exact ⟨before, left, right, after, hvalue, hleft, hright, hbefore, hafter⟩
  · rintro ⟨before, left, right, after, hvalue, hleft, hright, hbefore, hafter⟩
    -- No comma is white space, so the option with its blanks is one piece.
    refine ⟨left ++ (option.toList ++ right), Text.mem_splitAt_iff.mpr
      ⟨?_, before, after, hvalue, hbefore, hafter⟩,
      (Unicode.trim_eq_iff hne hhead hlast).mpr ⟨left, right, rfl, hleft, hright⟩⟩
    rw [List.mem_append, List.mem_append]
    rintro (h | h | h)
    · exact hwhite (hleft _ h) rfl
    · exact hcomma h
    · exact hwhite (hright _ h) rfl

/-- Two options make the generator pass over a field. -/
theorem any_isIgnoring_iff (value : String) :
    (optionsOf value).any isIgnoring = true ↔ Lists value "-" ∨ Lists value "ignore" := by
  rw [← mem_optionsOf_iff_lists (by decide) (by decide),
    ← mem_optionsOf_iff_lists (by decide) (by decide), List.any_eq_true]
  simp only [isIgnoring, Bool.or_eq_true, decide_eq_true_eq]
  constructor
  · rintro ⟨option, hoption, rfl | rfl⟩
    · exact Or.inl hoption
    · exact Or.inr hoption
  · rintro (h | h)
    · exact ⟨_, h, Or.inl rfl⟩
    · exact ⟨_, h, Or.inr rfl⟩

/-- A tag of pairs is read back: every key has the value of its first pair, and the generator
    passes over the field exactly if the first value of its own key lists one of the two
    options that say so. -/
theorem read_of_written (ε : Type) {pairs : List (String × String)} {tag : String}
    (h : Written pairs tag.toList) :
    (∀ key : String, lookup key.toList tag.toList = pairs.lookup key) ∧
      ((read tag : Logged ε Bool).result = .ok true ↔
        ∃ value, pairs.lookup StructTag.key = some value ∧
          (Lists value "-" ∨ Lists value "ignore")) := by
  refine ⟨h.lookup_eq, ?_⟩
  have hignores : (read tag : Logged ε Bool).result = .ok true ↔ ignores tag = true :=
    ⟨fun h => Except.ok.inj h, congrArg Except.ok⟩
  rw [hignores, ignores, h.lookup_eq]
  cases pairs.lookup StructTag.key with
  | none =>
      refine iff_of_false Bool.false_ne_true ?_
      rintro ⟨value, hvalue, -⟩
      contradiction
  | some value =>
      rw [any_isIgnoring_iff]
      constructor
      · exact fun h => ⟨value, rfl, h⟩
      · rintro ⟨other, hother, h⟩
        rwa [Option.some.inj hother]

theorem read_of_written_two_pairs :
    Written [("doc", "a\"b"), ("gooptions", "x, -")]
        "doc:\"a\\\"b\" gooptions:\"x, \\u002d\"".toList ∧
      lookup "doc".toList "doc:\"a\\\"b\" gooptions:\"x, \\u002d\"".toList = some "a\"b" ∧
      (read "doc:\"a\\\"b\" gooptions:\"x, \\u002d\"" : Logged Unit Bool).result = .ok true := by
  have hdoc : IsKey "doc" := by decide
  have hkey : IsKey "gooptions" := by decide
  have hfirst : Spells [.plain 'a', .letter '"', .plain 'b'] "a\"b" :=
    .cons rfl (.cons rfl (.cons rfl .nil))
  have hsecond : Spells [.plain 'x', .plain ',', .plain ' ', .unit ['0', '0', '2', 'd']] "x, -" :=
    .cons rfl (.cons rfl (.cons rfl (.cons rfl .nil)))
  have hwritten : Written [("doc", "a\"b"), ("gooptions", "x, -")]
      "doc:\"a\\\"b\" gooptions:\"x, \\u002d\"".toList :=
    .cons 0 hdoc hfirst (.cons 1 hkey hsecond (.nil 0))
  have hlists : Lists "x, -" "-" := by
    refine ⟨['x', ','], [' '], [], [], rfl, List.forall_mem_singleton.mpr rfl,
      List.forall_mem_nil _, ?_, fun c hc => absurd hc (Option.not_mem_none c)⟩
    rintro c ⟨⟩
    rfl
  exact ⟨hwritten, (read_of_written Unit hwritten).1 "doc",
    (read_of_written Unit hwritten).2.mpr ⟨"x, -", rfl, Or.inl hlists⟩⟩

end StructTag

end Go

end FunctionalOptions
