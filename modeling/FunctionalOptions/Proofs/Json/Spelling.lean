import FunctionalOptions.Json.Token
import FunctionalOptions.Proofs.Json.Scan

/-!
# How Tokens Are Spelled

A text spells tokens if it can be taken apart into their lexemes, with blanks anywhere between. A
string can be spelled with all kinds of escapes, and a number has to end where its literal does.

The tokens of a text are those that it spells. So a text spells at most one list of tokens, and it
spells one unless it holds something that cannot be read.

## Main definitions

* `Lexeme`: A text of a token.
* `Spells`: A text spells tokens, with blanks anywhere around them.
* `Front`: What comes first in a text that does not begin with a blank.

## Theorems

* `tokens_eq_of_spells`: The tokens of a text are the ones that it spells.
* `front`: What comes first in a text is a token, or cannot be read.
* `spells_tokens`: A text spells its tokens, unless it cannot be read to its end.
-/

namespace FunctionalOptions

namespace Json

/-- The text of a token that has only one. -/
def Token.word? : Token → Option (List Char)
  | .openArray => some ['[']
  | .closeArray => some [']']
  | .openObject => some ['\x7b']
  | .closeObject => some ['\x7d']
  | .comma => some [',']
  | .colon => some [':']
  | .null => some ['n', 'u', 'l', 'l']
  | .bool true => some ['t', 'r', 'u', 'e']
  | .bool false => some ['f', 'a', 'l', 's', 'e']
  | _ => none

/-- A text of a token. -/
inductive Lexeme : Token → List Char → Prop where
  | word {token : Token} {text : List Char} : token.word? = some text → Lexeme token text
  | number {literal : List Char} : scanNumber literal = .ok (literal, []) →
    Lexeme (.number (String.ofList literal)) literal
  | string {body : List Char} {units : List CodeUnit} : scanQuoted body = ⟨units, .ok []⟩ →
    Lexeme (.string ((join? units).map String.ofList)) ('"' :: body)

/-- A text that spells tokens, with blanks anywhere around them. A number has to end. -/
inductive Spells : List Token → List Char → Prop where
  | nil : Spells [] []
  | blank {tokens : List Token} {c : Char} {text : List Char} : Text.isBlank c = true →
    Spells tokens text → Spells tokens (c :: text)
  | token {token : Token} {tokens : List Token} {lexeme text : List Char} : Lexeme token lexeme →
    (∀ literal, token = .number literal → EndsNumber text) → Spells tokens text →
    Spells (token :: tokens) (lexeme ++ text)

theorem Spells.word {token : Token} {tokens : List Token} {word text rest : List Char}
    (h : token.word? = some word) (htext : text = word ++ rest) (hrest : Spells tokens rest) :
    Spells (token :: tokens) text := by
  rw [htext]
  refine .token (.word h) ?_ hrest
  rintro literal rfl
  cases h

/-! ## Spelled tokens are read -/

section Tokens

variable (rest : List Char)

theorem tokens_word {token : Token} {text : List Char} (h : token.word? = some text) :
    tokens (text ++ rest) = token :: tokens rest := by
  cases token with
  | bool value =>
      cases value <;>
      · cases h
        rw [List.cons_append, tokens]
        rfl
  | number | string | brokenString | brokenWord => cases h
  | _ =>
      cases h
      rw [List.cons_append, tokens]
      rfl

theorem tokens_blank {c : Char} (h : Text.isBlank c = true) : tokens (c :: rest) = tokens rest := by
  rw [tokens.eq_def]
  exact if_pos h

/-- The token of a string, when its body is scanned to the quote. -/
theorem tokens_string {units : List CodeUnit} {after : List Char}
    (h : scanQuoted rest = ⟨units, .ok after⟩) :
    tokens ('"' :: rest) = .string ((join? units).map String.ofList) :: tokens after := by
  rw [tokens, if_neg (by decide)]
  simp only [h]
  -- Of the two ways in which the scan may end it ended in the first one.
  split
  · next other hother =>
    rw [h] at hother
    rw [Except.ok.inj hother]
  · next failure hfailure =>
    rw [h] at hfailure
    cases hfailure

/-- The token of a number whose literal is scanned. -/
theorem tokens_scanned {text literal after : List Char}
    (h : scanNumber text = .ok (literal, after)) :
    tokens text = .number (String.ofList literal) :: tokens after := by
  rcases exists_cons_of_scanNumber h with ⟨c, rest, rfl, hc⟩
  -- What a number begins with is none of the characters that are tried before.
  have hmark : ∀ mark : Char, mark ≠ '-' → mark.isDigit = false → c = mark → False := by
    rintro mark hminus hdigit rfl
    rcases hc with hc | hc
    · exact hminus hc
    · rw [hdigit] at hc
      cases hc
  have hblank : ¬Text.isBlank c = true := by
    intro hblank
    simp only [Text.isBlank, Bool.or_eq_true, decide_eq_true_eq] at hblank
    rcases hblank with ((hblank | hblank) | hblank) | hblank <;>
      exact hmark _ (by decide) (by decide) hblank
  have hnumber : (decide (c = '-') || c.isDigit) = true := by
    simpa only [Bool.or_eq_true, decide_eq_true_eq] using hc
  rw [tokens, if_neg hblank, if_pos hnumber]
  · split
    · next hother =>
      rw [h] at hother
      cases hother
      rfl
    · next hother =>
      rw [h] at hother
      cases hother
  all_goals exact hmark _ (by decide) (by decide)

/-- The token of a lexeme comes first. -/
theorem Lexeme.tokens_append {token : Token} {lexeme rest : List Char} (h : Lexeme token lexeme)
    (hrest : ∀ literal, token = .number literal → EndsNumber rest) :
    tokens (lexeme ++ rest) = token :: tokens rest := by
  cases h with
  | word h => exact tokens_word rest h
  | number h =>
      -- A number is only over when what follows it cannot be a part of it.
      have hne := (scanNumber_append h).2
      exact tokens_scanned ((scanNumber_extends (hrest _ rfl) hne).forward lexeme [] h)
  | @string body units h =>
      have hbody := scanQuoted_append (by rw [h]) rest
      rw [List.cons_append, tokens_string (body ++ rest) hbody, h]
      rfl

/-- The tokens of a text are the ones that it spells. -/
theorem tokens_eq_of_spells {text : List Char} {spelled : List Token} (h : Spells spelled text) :
    tokens text = spelled := by
  induction h with
  | nil => rw [tokens]
  | blank hc _ ih => rw [tokens_blank _ hc, ih]
  | token hlexeme hend _ ih => rw [hlexeme.tokens_append hend, ih]

end Tokens

/-! ## Tokens that are read are spelled -/

section Converse

/-- The token stands for the rest of a text that cannot be read. -/
def Token.isBroken : Token → Bool
  | .brokenString _ => true
  | .brokenWord _ => true
  | _ => false

theorem exists_eq_append_of_scanWord {word text after : List Char}
    (h : scanWord word text = .ok after) : text = word ++ after := by
  fun_induction scanWord word text with
  | case1 => cases h; rfl
  | case2 => cases h
  | case3 c word text ih => rw [ih h]; rfl
  | case4 => cases h

/-- Nothing that a number could go on with begins a token. -/
theorem endsNumber_of_tokens {text : List Char} (hdigit : NoDigit text)
    (h : ∀ token ∈ tokens text, token.isBroken = false) : EndsNumber text := by
  intro c hc
  cases text with
  | nil => cases hc
  | cons d rest =>
      cases hc
      -- A point or an exponent on its own would be a word that is broken.
      have hbroken : tokens (c :: rest) ≠ [.brokenWord .malformed] := by
        intro hbroken
        rw [hbroken] at h
        cases h _ List.mem_cons_self
      refine ⟨hdigit c rfl, ?_, ?_, ?_⟩ <;>
      · rintro rfl
        refine hbroken ?_
        rw [tokens.eq_def]
        rfl

/-- What comes first in a text that does not begin with a blank. -/
inductive Front (c : Char) (rest : List Char) : Prop where
  | broken {token : Token} : token.isBroken = true → tokens (c :: rest) = [token] → Front c rest
  | lexeme {token : Token} {more after : List Char} : Lexeme token (c :: more) →
    (∀ literal, token ≠ .number literal) → rest = more ++ after →
    tokens (c :: rest) = token :: tokens after → Front c rest
  | number {literal after : List Char} : scanNumber (c :: rest) = .ok (literal, after) →
    tokens (c :: rest) = .number (String.ofList literal) :: tokens after → Front c rest

theorem Front.word {c : Char} {rest more after : List Char} {token : Token}
    (h : token.word? = some (c :: more)) (hrest : rest = more ++ after)
    (htokens : tokens (c :: rest) = token :: tokens after) : Front c rest := by
  refine .lexeme (.word h) ?_ hrest htokens
  rintro literal rfl
  cases h

theorem front {c : Char} (hblank : ¬Text.isBlank c = true) (rest : List Char) : Front c rest := by
  generalize htokens : tokens (c :: rest) = read
  have hread := htokens
  rw [tokens.eq_def] at hread
  replace hread := (if_neg hblank).symm.trans hread
  -- One case for each mark, for the first letter of each word, for a quote and for all else.
  split at hread
  iterate 6 exact .word rfl rfl (htokens.trans hread.symm)
  iterate 3
    · split at hread
      · next hword =>
        exact .word rfl (exists_eq_append_of_scanWord hword) (htokens.trans hread.symm)
      · exact .broken rfl (htokens.trans hread.symm)
  · split at hread
    · next hstring =>
      rcases exists_scanQuoted_of_rest hstring with ⟨body, hrest, hbody⟩
      exact .lexeme (.string hbody) (by rintro _ ⟨⟩) hrest (htokens.trans hread.symm)
    · exact .broken rfl (htokens.trans hread.symm)
  · split at hread
    · split at hread
      · next hnumber => exact .number hnumber (htokens.trans hread.symm)
      · exact .broken rfl (htokens.trans hread.symm)
    · exact .broken rfl (htokens.trans hread.symm)

/-- A text spells its tokens, unless it cannot be read to its end. -/
theorem spells_tokens {text : List Char} (h : ∀ token ∈ tokens text, token.isBroken = false) :
    Spells (tokens text) text := by
  induction hn : text.length using Nat.strongRecOn generalizing text with
  | ind size ih =>
    cases text with
    | nil =>
        rw [tokens]
        exact .nil
    | cons c rest =>
        rw [List.length_cons] at hn
        by_cases hblank : Text.isBlank c = true
        · rw [tokens_blank rest hblank] at h ⊢
          exact .blank hblank (ih _ (by omega) h rfl)
        · cases front hblank rest with
          | @broken token hbroken htokens =>
              rw [htokens, List.forall_mem_singleton, hbroken] at h
              cases h
          | lexeme hlexeme hnumber hrest htokens =>
              rw [htokens, List.forall_mem_cons] at h
              subst hrest
              rw [List.length_append] at hn
              rw [htokens, ← List.cons_append]
              exact .token hlexeme (fun literal h => absurd h (hnumber literal))
                (ih _ (by omega) h.2 rfl)
          | @number literal after hscan htokens =>
              rw [htokens, List.forall_mem_cons] at h
              -- Nothing is broken behind the number either, so that is where it ends.
              have hend := endsNumber_of_tokens (scanNumber_noDigit hscan) h.2
              rcases scanNumber_append hscan with ⟨htext, hne⟩
              have hlength := congrArg List.length htext
              have hpos := List.length_pos_iff.mpr hne
              rw [List.length_cons, List.length_append] at hlength
              rw [htokens]
              -- Cut off there, the literal is scanned as it was in the text.
              rw [htext] at hscan ⊢
              have hliteral := (scanNumber_extends hend hne).backward literal [] hscan
              exact .token (.number hliteral) (fun _ _ => hend) (ih _ (by omega) h.2 rfl)

end Converse

end Json

end FunctionalOptions
