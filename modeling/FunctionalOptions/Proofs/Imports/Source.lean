import FunctionalOptions.Proofs.Grammar.Literal
import FunctionalOptions.Proofs.Names.Legality
import FunctionalOptions.Proofs.Text.Runs

/-!
# Import Declarations

What the language reads in an import declaration. The source text is taken apart into
tokens by the lexical rules: blanks and comments separate and mean nothing, and a line
break ends a statement where one may end. A declaration with a block has one package
after the other in it, each with its path and possibly with a name in front.

Only what can stand in an import declaration is told apart. A text that goes on in any
other way is no declaration, whatever else it may be.

## Main definitions

* `Source.skip`: What is passed over between two tokens.
* `Source.next`: The first token of a text, and what follows it.
* `Source.Spec`: What a declaration says of one package.
* `Source.readImports`: The packages of a declaration, and what follows it.

## Theorems

* `Source.next_word`, `Source.next_name`: Words are read to their end.
-/

namespace FunctionalOptions

namespace Go

namespace Source

/-! ## Tokens -/

/-- What is passed over between two tokens. -/
inductive Gap where
  | blanks
  /-- A comment up to the end of the line. -/
  | line
  /-- A comment between marks, which may have had line breaks in it. -/
  | block (broken : Bool)

/-- The character separates tokens and means nothing else. -/
def isSpace (c : Char) : Bool :=
  c = ' ' || c = '\t' || c = '\r'

/-- Pass over blanks and comments. Where a statement may end, a line break ends it, and
    the text behind the break is given; a comment with a break in it counts as one. -/
def skip (ends : Bool) : Gap → List Char → Option (Bool × List Char)
  | .block _, [] => none
  | _, [] => some (ends, [])
  | .blanks, '\n' :: rest => if ends then some (true, rest) else skip ends .blanks rest
  | .blanks, '/' :: '/' :: rest => skip ends .line rest
  | .blanks, '/' :: '*' :: rest => skip ends (.block false) rest
  | .blanks, c :: rest => if isSpace c then skip ends .blanks rest else some (false, c :: rest)
  | .line, '\n' :: rest => if ends then some (true, rest) else skip ends .blanks rest
  | .line, _ :: rest => skip ends .line rest
  | .block broken, '*' :: '/' :: rest =>
    if broken && ends then some (true, rest) else skip ends .blanks rest
  | .block broken, c :: rest => skip ends (.block (broken || c = '\n')) rest

/-- The tokens that an import declaration is made of. -/
inductive Lexeme where
  | word (text : String)
  | literal (bytes : List UInt8)
  | mark (c : Char)
deriving DecidableEq

/-- The marks in an import declaration. -/
def importMarks : List Char := ['(', ')', ';', '.']

/-- What a raw literal stands for behind its opening quote, and what follows it. -/
def readRaw : List Char → Option (List UInt8 × List Char)
  | [] => none
  | '\x60' :: rest => some ([], rest)
  | '\r' :: rest => readRaw rest
  | c :: rest =>
    (readRaw rest).map fun (others, rest) => (String.utf8EncodeChar c ++ others, rest)

/-- The first token of a text, and what follows it. The end of a statement is a
    semicolon, written or not. -/
def next (ends : Bool) (text : List Char) : Option (Lexeme × List Char) :=
  match skip ends .blanks text with
  | none => none
  | some (true, rest) => some (.mark ';', rest)
  | some (false, []) => none
  | some (false, c :: rest) =>
    if c = '"' then (readQuoted rest).map fun (bytes, rest) => (.literal bytes, rest)
    else if c = '\x60' then (readRaw rest).map fun (bytes, rest) => (.literal bytes, rest)
    else if isWordStart c then
      some (.word (String.ofList (c :: rest.takeWhile isWordPart)), rest.dropWhile isWordPart)
    else if importMarks.contains c then some (.mark c, rest)
    else none

/-! ## Declarations -/

/-- What an import declaration says of one package: the name it is given, if there is
    one, and the path. -/
structure Spec where
  name : Option String
  path : List UInt8
deriving DecidableEq

/-- The rest of what is said of a package, given the first token. -/
def readSpec : Lexeme → List Char → Option (Spec × List Char)
  | .literal path, rest => some (⟨none, path⟩, rest)
  | .word name, rest =>
    if isLegalName name then
      match next true rest with
      | some (.literal path, rest) => some (⟨some name, path⟩, rest)
      | _ => none
    else none
  | .mark '.', rest =>
    match next false rest with
    | some (.literal path, rest) => some (⟨some ".", path⟩, rest)
    | _ => none
  | .mark _, _ => none

/-- What stands behind one package: the other ones, or the end of the block. -/
def closeSpec (others : List Char → Option (List Spec × List Char)) (spec : Spec)
    (text : List Char) : Option (List Spec × List Char) :=
  match next true text with
  | some (.mark ';', rest) => (others rest).map fun (specs, rest) => (spec :: specs, rest)
  | some (.mark ')', rest) => some ([spec], rest)
  | _ => none

/-- The packages in a block up to its end, and what follows the block. There may be
    fewer of them than a limit. -/
def readSpecs : Nat → List Char → Option (List Spec × List Char)
  | 0, _ => none
  | limit + 1, text =>
    match next false text with
    | none => none
    | some (.mark ')', rest) => some ([], rest)
    | some (first, rest) =>
      (readSpec first rest).bind fun (spec, rest) => closeSpec (readSpecs limit) spec rest

/-- What stands behind a block: the end of the declaration. The text is given from the
    next token on. -/
def closeBlock (specs : List Spec) (text : List Char) : Option (List Spec × List Char) :=
  match next true text with
  | some (.mark ';', rest) => (skip false .blanks rest).map fun (_, rest) => (specs, rest)
  | _ => none

/-- The packages in an import declaration with a block, and what follows it. Without a
    declaration there are none. -/
def readImports (text : List Char) : Option (List Spec × List Char) :=
  match next false text with
  | some (.word "import", rest) =>
    match next false rest with
    | some (.mark '(', rest) =>
      (readSpecs (rest.length + 1) rest).bind fun (specs, rest) => closeBlock specs rest
    | _ => none
  | _ => some ([], text)

variable {ends : Bool} {c : Char} {rest : List Char}

/-- Characters that end a word and begin none. -/
def separators : List Char := [' ', '\t', '\r', '\n', '/', '"', '\x60', '(', ')']

theorem not_isWordPart (h : c ∈ separators) : isWordPart c = false := by
  -- All of them are in ASCII, where the table of letters need not be looked at.
  have hascii : separators.all (fun c =>
      c.toNat < 128 && !(c.isAlpha || c = '_' || c.isDigit)) = true := by
    decide
  have hc := List.all_eq_true.mp hascii c h
  rw [Bool.and_eq_true, decide_eq_true_eq, Bool.not_eq_true'] at hc
  rw [isWordPart_ascii hc.1, hc.2]

/-- A blank ends a word. -/
theorem not_isWordPart_of_mem_head? (rest : List Char) :
    ∀ d ∈ (' ' :: rest).head?, isWordPart d = false := by
  rintro _ ⟨⟩
  exact not_isWordPart (by decide)

theorem not_isWordStart (h : c ∈ separators) : isWordStart c = false := by
  have hc := not_isWordPart h
  rw [isWordPart, Bool.or_eq_false_iff] at hc
  exact hc.1

theorem ne_of_isWordStart {d : Char} (hc : isWordStart c = true) (hd : d ∈ separators) :
    c ≠ d := by
  rintro rfl
  exact absurd (hc.symm.trans (not_isWordStart hd)) (by decide)

theorem next_space (h : isSpace c = true) : next ends (c :: rest) = next ends rest := by
  have hskip : skip ends .blanks (c :: rest) = skip ends .blanks rest := by
    simp only [isSpace, Bool.or_eq_true, decide_eq_true_eq] at h
    rcases h with (rfl | rfl) | rfl <;> rfl
  rw [next, hskip, ← next]

/-- A line break ends a statement that may end. -/
theorem next_break : next true ('\n' :: rest) = some (.mark ';', rest) :=
  rfl

theorem next_false_break : next false ('\n' :: rest) = next false rest :=
  rfl

theorem next_quote :
    next ends ('"' :: rest) = (readQuoted rest).map fun (bytes, rest) => (.literal bytes, rest) :=
  rfl

/-- A character that begins a word is no blank and begins no comment. -/
theorem skip_word (h : isWordStart c = true) :
    skip ends .blanks (c :: rest) = some (false, c :: rest) := by
  -- Of the characters with an equation of their own, it is none.
  have hother : ∀ d ∈ separators, c ≠ d := fun _ => ne_of_isWordStart h
  simp only [separators, List.forall_mem_cons] at hother
  rcases hother with ⟨hspace, htab, hreturn, hbreak, hslash, -⟩
  rw [skip]
  all_goals simp_all [isSpace]

/-- A word is read up to the first character that cannot stand in it. -/
theorem next_word {name : String} {more : List Char} (hname : name.toList = c :: more)
    (hc : isWordStart c = true) (hmore : ∀ d ∈ more, isWordPart d = true)
    (hrest : ∀ d ∈ rest.head?, isWordPart d = false) :
    next ends (name.toList ++ rest) = some (.word name, rest) := by
  have hquote : c ≠ '"' := ne_of_isWordStart hc (by decide)
  have hraw : c ≠ '\x60' := ne_of_isWordStart hc (by decide)
  rcases Text.takeWhile_append_of_head hmore hrest with ⟨htake, hdrop⟩
  -- No other kind of token begins like a word.
  rw [hname, List.cons_append, next, skip_word hc]
  simp only [if_neg hquote, if_neg hraw, if_pos hc, htake, hdrop]
  rw [← hname, String.ofList_toList]

theorem next_name {name : String} (h : isLegalName name = true)
    (hrest : ∀ d ∈ rest.head?, isWordPart d = false) :
    next ends (name.toList ++ rest) = some (.word name, rest) := by
  unfold isLegalName at h
  cases hname : name.toList with
  | nil =>
      rw [hname] at h
      exact absurd h Bool.false_ne_true
  | cons c more =>
      simp only [hname, Bool.and_eq_true, List.all_eq_true] at h
      rw [← hname]
      exact next_word hname h.1.1 h.1.2 hrest

/-- Parentheses are tokens by themselves. -/
theorem next_parenthesis (h : c ∈ ['(', ')']) : next ends (c :: rest) = some (.mark c, rest) := by
  have hc : isWordStart c = false := by
    rcases List.mem_pair.mp h with rfl | rfl <;> exact not_isWordStart (by decide)
  have hskip : skip ends .blanks (c :: rest) = some (false, c :: rest) := by
    rcases List.mem_pair.mp h with rfl | rfl <;> rfl
  rw [next, hskip]
  rcases List.mem_pair.mp h with rfl | rfl <;> simp_all [importMarks]

end Source

end Go

end FunctionalOptions
