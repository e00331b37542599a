import FunctionalOptions.Go.Identifier
import FunctionalOptions.Proofs.Names.Letters
import FunctionalOptions.Proofs.Text.Decimal
import FunctionalOptions.Proofs.Text.Runs

/-!
# Tokens of Type Texts

The text of a type as a list of tokens, by the lexical rules of the language: a
token is as long as it can be, blanks only separate, and a keyword is no name.
A line break is not among the blanks, since it may end a declaration.

Only decimal literals occur where a type has a number, and a zero in front of
further digits makes a literal of another base, so such a word is refused with
everything else that has no part in types.

## Main definitions

* `Token`: A token.
* `tokens`: The tokens of a text.
* `IsName`: The text is a name, and not a keyword.

## Theorems

* `tokens_word`: A word is read to its end.
* `tokens_name`, `tokens_number`: A name is read as itself, and the numeral of
  a number as the number.
-/

namespace FunctionalOptions

namespace Go

/-- A token. The keywords and marks that types are made of have a token each;
    the other keywords and everything else cannot occur in a type. -/
inductive Token where
  | name (text : String)
  | number (value : Nat)
  | chan
  | func
  | interface
  | map
  | struct
  | reserved (word : String)
  | star
  | dot
  | ellipsis
  | comma
  | arrow
  | openParen
  | closeParen
  | openBracket
  | closeBracket
  | openBrace
  | closeBrace
  | illegal (text : String)
deriving DecidableEq, Repr

namespace Token

/-- The token of a keyword. -/
def ofKeyword (word : String) : Token :=
  if word = "chan" then .chan
  else if word = "func" then .func
  else if word = "interface" then .interface
  else if word = "map" then .map
  else if word = "struct" then .struct
  else .reserved word

/-- The value of a decimal literal. -/
def decimal? (word : List Char) : Option Nat :=
  if word.all Char.isDigit && (word == ['0'] || word.head? != some '0') then
    some (Nat.ofDigitChars 10 word 0)
  else none

/-- The token of a word, which is a longest run of letters, digits and
    underscores. -/
def ofWord (word : List Char) : Token :=
  let text := String.ofList word
  if isKeyword text then ofKeyword text
  else if isIdentifier text then .name text
  else match decimal? word with
    | some value => .number value
    | none => .illegal text

/-- The token that begins with a mark, and what follows it. -/
def scanMark (c : Char) (rest : List Char) : Token × List Char :=
  match c, rest with
  | '.', '.' :: '.' :: rest => (.ellipsis, rest)
  | '<', '-' :: rest => (.arrow, rest)
  | '.', rest => (.dot, rest)
  | '*', rest => (.star, rest)
  | ',', rest => (.comma, rest)
  | '(', rest => (.openParen, rest)
  | ')', rest => (.closeParen, rest)
  | '[', rest => (.openBracket, rest)
  | ']', rest => (.closeBracket, rest)
  | '{', rest => (.openBrace, rest)
  | '}', rest => (.closeBrace, rest)
  | c, rest => (.illegal (String.singleton c), rest)

/-- What follows a mark is no longer than the text behind its first
    character. -/
theorem scanMark_length (c : Char) (rest : List Char) :
    (scanMark c rest).2.length ≤ rest.length := by
  unfold scanMark
  split
  all_goals simp only [List.length_cons]
  all_goals omega

end Token

/-- The tokens of a text. -/
def tokens : List Char → List Token
  | [] => []
  | c :: rest =>
    if isNamePart c then
      .ofWord (c :: rest.takeWhile isNamePart) :: tokens (rest.dropWhile isNamePart)
    else if c = ' ' ∨ c = '\t' then tokens rest
    else (Token.scanMark c rest).1 :: tokens (Token.scanMark c rest).2
termination_by text => text.length
decreasing_by
  · have := (List.dropWhile_sublist (l := rest) isNamePart).length_le
    simp only [List.length_cons]
    omega
  · simp only [List.length_cons]
    omega
  · have := Token.scanMark_length c rest
    simp only [List.length_cons]
    omega

/-- The text is a name: an identifier that is not a keyword. -/
def IsName (text : String) : Prop :=
  isIdentifier text = true ∧ isKeyword text = false

instance (text : String) : Decidable (IsName text) :=
  inferInstanceAs (Decidable (_ ∧ _))

/-- The text does not go on with a character of a word. -/
def EndsWord (rest : List Char) : Prop :=
  ∀ c ∈ rest.head?, isNamePart c = false

/-- A word is read to its end. -/
theorem tokens_word {word rest : List Char} (hne : word ≠ [])
    (hword : ∀ c ∈ word, isNamePart c = true) (hrest : EndsWord rest) :
    tokens (word ++ rest) = .ofWord word :: tokens rest := by
  rcases List.exists_cons_of_ne_nil hne with ⟨c, more, rfl⟩
  have hmore : ∀ d ∈ more, isNamePart d = true := fun d hd =>
    hword d (List.mem_cons_of_mem _ hd)
  rcases Text.takeWhile_append_of_head hmore hrest with ⟨htake, hdrop⟩
  rw [List.cons_append, tokens, if_pos (hword c List.mem_cons_self), htake, hdrop]

/-- In ASCII, words are made of the usual letters and digits and the underscore. -/
theorem isNamePart_ascii {c : Char} (hc : c.toNat < 128) :
    isNamePart c = (c.isAlphanum || c = '_') := by
  rw [isNamePart, Unicode.isAlphabetic_ascii hc, Unicode.isNumeric_ascii hc, Char.isAlphanum]

/-- The characters that a type text has beside words. -/
def marks : List Char :=
  [' ', '*', ',', '(', ')', '[', ']', '\x7b', '\x7d', '<', '.']

/-- No mark belongs to a word. -/
theorem isNamePart_mark {c : Char} (h : c ∈ marks) : isNamePart c = false := by
  have htable : marks.all (fun c => c.toNat < 128 && !(c.isAlphanum || c = '_')) = true := by
    decide
  have hentry := List.all_eq_true.mp htable c h
  rw [Bool.and_eq_true, decide_eq_true_eq, Bool.not_eq_true'] at hentry
  rw [isNamePart_ascii hentry.1, hentry.2]

/-- A word ends where a mark follows. -/
theorem EndsWord.mark {c : Char} (h : c ∈ marks) (rest : List Char) : EndsWord (c :: rest) := by
  intro d hd
  obtain rfl := Option.some.inj hd
  exact isNamePart_mark h

/-- A mark is read as what the marks at the head of the text say. -/
theorem tokens_mark {c : Char} (rest : List Char) (hmark : c ∈ marks) (hblank : c ≠ ' ') :
    tokens (c :: rest) = (Token.scanMark c rest).1 :: tokens (Token.scanMark c rest).2 := by
  have htab : ¬(c = ' ' ∨ c = '\t') := by
    rintro (h | rfl)
    · exact hblank h
    · exact absurd hmark (by decide)
  rw [tokens, isNamePart_mark hmark, if_neg Bool.false_ne_true, if_neg htab]

/-- A blank only separates. -/
theorem tokens_blank (rest : List Char) : tokens (' ' :: rest) = tokens rest := by
  rw [tokens, isNamePart_mark (by decide), if_neg Bool.false_ne_true, if_pos (Or.inl rfl)]

theorem tokens_star (rest : List Char) : tokens ('*' :: rest) = .star :: tokens rest :=
  tokens_mark rest (by decide) (by decide)

theorem tokens_comma (rest : List Char) : tokens (',' :: rest) = .comma :: tokens rest :=
  tokens_mark rest (by decide) (by decide)

theorem tokens_openParen (rest : List Char) : tokens ('(' :: rest) = .openParen :: tokens rest :=
  tokens_mark rest (by decide) (by decide)

theorem tokens_closeParen (rest : List Char) :
    tokens (')' :: rest) = .closeParen :: tokens rest :=
  tokens_mark rest (by decide) (by decide)

theorem tokens_openBracket (rest : List Char) :
    tokens ('[' :: rest) = .openBracket :: tokens rest :=
  tokens_mark rest (by decide) (by decide)

theorem tokens_closeBracket (rest : List Char) :
    tokens (']' :: rest) = .closeBracket :: tokens rest :=
  tokens_mark rest (by decide) (by decide)

theorem tokens_braces (rest : List Char) :
    tokens ('\x7b' :: '\x7d' :: rest) = .openBrace :: .closeBrace :: tokens rest := by
  rw [tokens_mark _ (by decide) (by decide)]
  exact congrArg (Token.openBrace :: ·) (tokens_mark rest (by decide) (by decide))

theorem tokens_arrow (rest : List Char) : tokens ('<' :: '-' :: rest) = .arrow :: tokens rest :=
  tokens_mark _ (by decide) (by decide)

theorem tokens_ellipsis (rest : List Char) :
    tokens ('.' :: '.' :: '.' :: rest) = .ellipsis :: tokens rest :=
  tokens_mark _ (by decide) (by decide)

/-- A point in front of a word stands alone. -/
theorem tokens_dot {c : Char} (rest : List Char) (hc : isNamePart c = true) :
    tokens ('.' :: c :: rest) = .dot :: tokens (c :: rest) := by
  have hne : c ≠ '.' := by
    rintro rfl
    exact absurd hc (by rw [isNamePart_mark (by decide)]; exact Bool.false_ne_true)
  have hscan : Token.scanMark '.' (c :: rest) = (.dot, c :: rest) := by
    unfold Token.scanMark
    split
    · next h => exact absurd (List.cons.inj h).1 hne
    all_goals simp_all
  rw [tokens_mark _ (by decide) (by decide), hscan]

/-- An identifier consists of characters of words, and there is at least
    one. -/
theorem word_of_isIdentifier {text : String} (h : isIdentifier text = true) :
    ∃ c rest, text.toList = c :: rest ∧ isNameStart c = true ∧
      ∀ d ∈ c :: rest, isNamePart d = true := by
  unfold isIdentifier at h
  cases htext : text.toList with
  | nil =>
      rw [htext] at h
      exact absurd h Bool.false_ne_true
  | cons c rest =>
      rw [htext] at h
      rcases Bool.and_eq_true_iff.mp h with ⟨hstart, hparts⟩
      refine ⟨c, rest, rfl, hstart, fun d hd => ?_⟩
      rcases List.mem_cons.mp hd with rfl | hd
      · -- What may begin a name may also go on with it.
        unfold isNameStart at hstart
        unfold isNamePart
        rcases Bool.or_eq_true_iff.mp hstart with halpha | hline
        · rw [halpha, Bool.true_or, Bool.true_or]
        · rw [hline, Bool.or_true]
      · exact List.all_eq_true.mp hparts d hd

/-- So does a name, which is an identifier. -/
theorem IsName.word {text : String} (h : IsName text) :
    ∃ c rest, text.toList = c :: rest ∧ isNameStart c = true ∧
      ∀ d ∈ c :: rest, isNamePart d = true :=
  word_of_isIdentifier h.1

/-- An identifier is read to its end. -/
theorem tokens_identifier {text : String} (h : isIdentifier text = true) {rest : List Char}
    (hrest : EndsWord rest) :
    tokens (text.toList ++ rest) = .ofWord text.toList :: tokens rest := by
  rcases word_of_isIdentifier h with ⟨c, more, htext, -, hparts⟩
  have hne : text.toList ≠ [] := by
    rw [htext]
    exact List.cons_ne_nil _ _
  exact tokens_word hne (by rwa [htext]) hrest

/-- The word of a name has the token of the name. -/
theorem IsName.ofWord {text : String} (h : IsName text) : Token.ofWord text.toList = .name text := by
  simp only [Token.ofWord, String.ofList_toList, h.2, h.1, if_true, Bool.false_eq_true, if_false]

/-- A name is read as itself. -/
theorem tokens_name {text : String} (h : IsName text) {rest : List Char} (hrest : EndsWord rest) :
    tokens (text.toList ++ rest) = .name text :: tokens rest := by
  rw [tokens_identifier h.1 hrest, h.ofWord]

/-- The keywords of types with their tokens. -/
def keywordTokens : List (String × Token) :=
  [("chan", .chan), ("func", .func), ("interface", .interface), ("map", .map),
    ("struct", .struct)]

/-- A keyword of types is read as its token. -/
theorem tokens_keyword {word : String} {token : Token} (h : (word, token) ∈ keywordTokens)
    {rest : List Char} (hrest : EndsWord rest) :
    tokens (word.toList ++ rest) = token :: tokens rest := by
  have htable : keywordTokens.all (fun entry => entry.1.toList != [] &&
      entry.1.toList.all isNamePart && Token.ofWord entry.1.toList == entry.2) = true := by
    decide
  have hentry := List.all_eq_true.mp htable _ h
  simp only [Bool.and_eq_true, bne_iff_ne, List.all_eq_true, beq_iff_eq] at hentry
  rcases hentry with ⟨⟨hne, hword⟩, htoken⟩
  rw [tokens_word hne hword hrest, htoken]

/-- A decimal digit does not begin a name. -/
theorem isNameStart_digit {c : Char} (h : c.isDigit = true) : isNameStart c = false := by
  have hle : c.toNat ≤ 57 := (Char.isDigit_iff_toNat.mp h).2
  have hascii : c.toNat < 128 := by
    omega
  have hletter : Unicode.isAlphabetic c = false :=
    Unicode.not_isAlphabetic_of_isDigit ((Unicode.isDigit_ascii hascii).trans h)
  have hline : c ≠ '_' := by
    rintro rfl
    exact absurd h (by decide)
  rw [isNameStart, hletter, Bool.false_or, decide_eq_false hline]

/-- A decimal digit belongs to a word. -/
theorem isNamePart_digit {c : Char} (h : c.isDigit = true) : isNamePart c = true := by
  have hrange := Char.isDigit_iff_toNat.mp h
  have hnumeric : Unicode.isNumeric c = true :=
    (Unicode.Ranges.holds_iff _ _).mpr ⟨(0x30, 0x39), by decide, hrange.1, hrange.2⟩
  rw [isNamePart, hnumeric, Bool.or_true, Bool.true_or]

/-- The numeral of a number is read as the number. -/
theorem tokens_number (n : Nat) {rest : List Char} (hrest : EndsWord rest) :
    tokens ((toString n).toList ++ rest) = .number n :: tokens rest := by
  rcases Text.toDigits_cons n with ⟨c, more, hdigits, hc, hmore, hzero⟩
  have hall : ∀ d ∈ Nat.toDigits 10 n, d.isDigit = true := fun d hd =>
    Nat.isDigit_of_mem_toDigits (by decide) (by decide) hd
  -- A word is tried as a keyword, a name and a number, in this order.
  have hkeyword : isKeyword (String.ofList (Nat.toDigits 10 n)) = false := by
    have htable : keywords.all (fun word => !word.toList.all Char.isDigit) = true := by
      decide
    refine Bool.eq_false_iff.mpr fun h => ?_
    have := List.all_eq_true.mp htable _ (List.contains_iff_mem.mp h)
    rw [String.toList_ofList, List.all_eq_true.mpr hall] at this
    exact absurd this Bool.false_ne_true
  have hidentifier : isIdentifier (String.ofList (Nat.toDigits 10 n)) = false := by
    simp only [isIdentifier, String.toList_ofList, hdigits, isNameStart_digit hc, Bool.false_and]
  have hdecimal : Token.decimal? (Nat.toDigits 10 n) = some n := by
    -- Only the numeral of zero begins with a zero.
    have hhead : (Nat.toDigits 10 n == ['0'] || (Nat.toDigits 10 n).head? != some '0') = true := by
      rw [hdigits]
      by_cases h : c = '0'
      · rw [h, hzero h]
        rfl
      · simp [h]
    rw [Token.decimal?, List.all_eq_true.mpr hall, hhead, Bool.and_self, if_pos rfl,
      Nat.ofDigitChars_ten_toDigits]
  rw [Nat.toString_eq_ofList_toDigits, String.toList_ofList,
    tokens_word Nat.toDigits_ne_nil (fun d hd => isNamePart_digit (hall d hd)) hrest]
  simp only [Token.ofWord, hkeyword, hidentifier, hdecimal, Bool.false_eq_true, if_false]

end Go

end FunctionalOptions
