import FunctionalOptions.Proofs.Grammar.Parser
import FunctionalOptions.Proofs.Imports.Table

/-!
# Reading Printed Types Back

Printing is undone by the grammar. The text of a type has no discipline that
would make this obvious: channel marks, parentheses and lists of results follow
each other with nothing between them, and one missing pair of parentheses turns
a type into another one.

The argument is an induction over written types that quantifies over what
follows the text. A type is followed by the end of the text, a closing bracket
or parenthesis, or a comma, and none of these can be taken for a part of the
type in front of it. The other half of the argument concerns the first token.
An entry of a parameter list and a single result are read by looking at it, and
so is the element of a two-way channel, where an arrow would be taken for the
wrong thing.

## Main definitions

* `NamedAlike`: All of a list of parameters have names, or none has.
* `Legible`: A written type whose text can be read back.
* `Closing`: What may follow the text of a type.
* `TypeExpr.Readable`, `AliasTable.Readable`: The conditions on types and
  aliases under which printed types are legible.

## Theorems

* `parseType_text`: A legible type is read from the head of a text, and what
  follows it is left over.
* `ofText?_text`: A legible type is read from its text.
* `ofText?_render`: A readable type is printed, and reading the text gives its
  written form.
-/

namespace FunctionalOptions

namespace Go

/-- All of a list of parameters have names, or none of them has. -/
def NamedAlike {τ : Type} (params : List (Param τ)) : Prop :=
  (∀ p ∈ params, p.name = none) ∨ ∀ p ∈ params, ∃ name, p.name = some name ∧ IsName name

/-- A written type whose text can be read back. -/
inductive Legible : WrittenType → Prop where
  | bare {name : String} : IsName name → Legible (.named none name)
  | qualified {qualifier name : String} :
    IsName qualifier → IsName name → Legible (.named (some qualifier) name)
  | emptyInterface : Legible (.named none "interface\x7b\x7d")
  | emptyStruct : Legible (.named none "struct\x7b\x7d")
  | pointer {elem : WrittenType} : Legible elem → Legible (.pointer elem)
  | slice {elem : WrittenType} : Legible elem → Legible (.slice elem)
  | array {len : Nat} {elem : WrittenType} : Legible elem → Legible (.array len elem)
  | channel {dir : Direction} {elem : WrittenType} : Legible elem → Legible (.channel dir elem)
  | map {key value : WrittenType} : Legible key → Legible value → Legible (.map key value)
  | func {inputs outputs : List (Param WrittenType)} :
    NamedAlike inputs → NamedAlike outputs → (∀ p ∈ outputs, p.variadic = false) →
    (∀ p ∈ inputs, Legible p.type) → (∀ p ∈ outputs, Legible p.type) →
    Legible (.func inputs outputs)

/-- What may follow the text of a type. -/
inductive Closing : List Char → Prop where
  | nil : Closing []
  | paren (rest : List Char) : Closing (')' :: rest)
  | bracket (rest : List Char) : Closing (']' :: rest)
  | comma (rest : List Char) : Closing (',' :: rest)

namespace Closing

variable {rest : List Char}

/-- What follows a type does not go on with a word of it. -/
theorem endsWord (h : Closing rest) : EndsWord rest := by
  cases h with
  | nil =>
      intro c hc
      exact nomatch hc
  | paren r | bracket r | comma r => exact EndsWord.mark (by decide) r

/-- The tokens of what follows a type. -/
theorem tokens_eq (h : Closing rest) :
    tokens rest = [] ∨ ∃ token more, tokens rest = token :: more ∧
      (token = .closeParen ∨ token = .closeBracket ∨ token = .comma) := by
  cases h with
  | nil => exact Or.inl (by rw [tokens])
  | paren r => exact Or.inr ⟨_, _, tokens_closeParen r, Or.inl rfl⟩
  | bracket r => exact Or.inr ⟨_, _, tokens_closeBracket r, Or.inr (Or.inl rfl)⟩
  | comma r => exact Or.inr ⟨_, _, tokens_comma r, Or.inr (Or.inr rfl)⟩

/-- A name in front of what follows a type is a whole type. -/
theorem parseName (h : Closing rest) (name : String) :
    Go.parseName name (tokens rest) = some (.named none name, tokens rest) := by
  rcases h.tokens_eq with htokens | ⟨_, _, htokens, rfl | rfl | rfl⟩ <;> rw [htokens] <;> rfl

/-- No type begins in what follows a type, behind a variadic mark or not. -/
theorem startsType_mark (h : Closing rest) : startsType (parseMark (tokens rest)).2 = false := by
  rcases h.tokens_eq with htokens | ⟨_, _, htokens, rfl | rfl | rfl⟩ <;> rw [htokens] <;> rfl

/-- A function type in front of what follows a type has no results. -/
theorem parseResults (h : Closing rest) (read : TypeReader) (bound : Nat) :
    Go.parseResults read bound (tokens rest) = some ([], tokens rest) := by
  rcases h.tokens_eq with htokens | ⟨_, _, htokens, rfl | rfl | rfl⟩ <;> rw [htokens] <;> rfl

end Closing

/-- How tokens have to begin for an unnamed entry, a single result or the
    element of a channel to be read as the type that was printed. -/
structure Leads (type : WrittenType) (tokens : List Token) : Prop where
  starts : startsType tokens = true
  /-- A name at the front is not that of a parameter. -/
  bare : ∀ name rest, tokens = .name name :: rest → startsType (parseMark rest).2 = false
  noParen : tokens.head? ≠ some .openParen
  arrow : tokens.head? = some .arrow → ∃ elem, type = .channel .recv elem

/-- The token is none that a reader looks at to tell two productions apart. -/
def Token.isPlain : Token → Bool
  | .name _ | .openParen | .arrow => false
  | _ => true

/-- A name at the front is that of a type when no type comes next. -/
theorem Leads.of_name {type : WrittenType} {name : String} {rest : List Token}
    (hrest : startsType (parseMark rest).2 = false) : Leads type (.name name :: rest) where
  starts := rfl
  bare _ _ h := by
    rw [← (List.cons.inj h).2]
    exact hrest
  noParen h := Token.noConfusion (Option.some.inj h)
  arrow h := Token.noConfusion (Option.some.inj h)

/-- An arrow at the front is that of a receiving channel. -/
theorem Leads.of_arrow (elem : WrittenType) (rest : List Token) :
    Leads (.channel .recv elem) (.arrow :: rest) where
  starts := rfl
  bare _ _ h := Token.noConfusion (List.cons.inj h).1
  noParen h := Token.noConfusion (Option.some.inj h)
  arrow _ := ⟨elem, rfl⟩

/-- Tokens that begin with a plain one are read as a type where one can begin. -/
theorem Leads.of_cons {type : WrittenType} {token : Token} {rest : List Token}
    (hstarts : startsType (token :: rest) = true) (hplain : token.isPlain = true) :
    Leads type (token :: rest) where
  starts := hstarts
  bare _ _ h := by
    obtain rfl := (List.cons.inj h).1
    exact absurd hplain Bool.false_ne_true
  noParen h := by
    obtain rfl := Option.some.inj h
    exact absurd hplain Bool.false_ne_true
  arrow h := by
    obtain rfl := Option.some.inj h
    exact absurd hplain Bool.false_ne_true

/-! ## The tokens of each constructor -/

section Spelling

variable (rest : List Char)

/-- A qualifier is read to its end even if it is a keyword. -/
theorem tokens_qualifier {qualifier name : String} (hq : isIdentifier qualifier = true)
    (hname : IsName name) :
    tokens ((WrittenType.named (some qualifier) name).text.toList ++ rest) =
      .ofWord qualifier.toList :: .dot :: tokens (name.toList ++ rest) := by
  rcases hname.word with ⟨c, more, hcons, -, hparts⟩
  rw [WrittenType.text, WrittenType.nameText, String.toList_append, String.toList_append,
    List.append_assoc, List.append_assoc]
  refine (tokens_identifier hq (EndsWord.mark (by decide) _)).trans
    (congrArg (Token.ofWord qualifier.toList :: ·) ?_)
  rw [hcons]
  exact tokens_dot _ (hparts c List.mem_cons_self)

theorem tokens_qualified {qualifier name : String} (hq : IsName qualifier) (hname : IsName name) :
    tokens ((WrittenType.named (some qualifier) name).text.toList ++ rest) =
      .name qualifier :: .dot :: tokens (name.toList ++ rest) := by
  rw [tokens_qualifier rest hq.1 hname, hq.ofWord]

theorem tokens_emptyInterface :
    tokens ((WrittenType.named none "interface\x7b\x7d").text.toList ++ rest) =
      .interface :: .openBrace :: .closeBrace :: tokens rest :=
  (tokens_keyword (show ("interface", Token.interface) ∈ keywordTokens by decide)
    (EndsWord.mark (by decide) _)).trans (congrArg (Token.interface :: ·) (tokens_braces rest))

theorem tokens_emptyStruct :
    tokens ((WrittenType.named none "struct\x7b\x7d").text.toList ++ rest) =
      .struct :: .openBrace :: .closeBrace :: tokens rest :=
  (tokens_keyword (show ("struct", Token.struct) ∈ keywordTokens by decide)
    (EndsWord.mark (by decide) _)).trans (congrArg (Token.struct :: ·) (tokens_braces rest))

variable (elem : WrittenType)

theorem tokens_pointer : tokens ((WrittenType.pointer elem).text.toList ++ rest) =
    .star :: tokens (elem.text.toList ++ rest) := by
  rw [WrittenType.text, String.toList_append, List.append_assoc]
  exact tokens_star _

theorem tokens_slice : tokens ((WrittenType.slice elem).text.toList ++ rest) =
    .openBracket :: .closeBracket :: tokens (elem.text.toList ++ rest) := by
  rw [WrittenType.text, String.toList_append, List.append_assoc]
  refine (tokens_openBracket _).trans (congrArg (Token.openBracket :: ·) ?_)
  exact tokens_closeBracket _

theorem tokens_array (len : Nat) : tokens ((WrittenType.array len elem).text.toList ++ rest) =
    .openBracket :: .number len :: .closeBracket :: tokens (elem.text.toList ++ rest) := by
  rw [WrittenType.text]
  simp only [String.toList_append, List.append_assoc]
  refine (tokens_openBracket _).trans (congrArg (Token.openBracket :: ·) ?_)
  refine (tokens_number len (EndsWord.mark (by decide) _)).trans ?_
  exact congrArg (Token.number len :: ·) (tokens_closeBracket _)

/-- The mark of a receiving channel is an arrow and the keyword. -/
theorem tokens_recv : tokens ((channelMark .recv).toList ++ rest) =
    .arrow :: .chan :: tokens rest := by
  refine (tokens_arrow _).trans (congrArg (Token.arrow :: ·) ?_)
  refine (tokens_keyword (show ("chan", Token.chan) ∈ keywordTokens by decide)
    (EndsWord.mark (by decide) (' ' :: rest).tail)).trans ?_
  exact congrArg (Token.chan :: ·) (tokens_blank rest)

/-- The mark of a sending channel is the keyword and an arrow. -/
theorem tokens_send : tokens ((channelMark .send).toList ++ rest) =
    .chan :: .arrow :: tokens rest := by
  refine (tokens_keyword (show ("chan", Token.chan) ∈ keywordTokens by decide)
    (EndsWord.mark (by decide) ('-' :: ' ' :: rest))).trans ?_
  refine congrArg (Token.chan :: ·) ((tokens_arrow _).trans ?_)
  exact congrArg (Token.arrow :: ·) (tokens_blank rest)

/-- The mark of a two-way channel is the keyword alone. -/
theorem tokens_both : tokens ((channelMark .both).toList ++ rest) = .chan :: tokens rest :=
  (tokens_keyword (show ("chan", Token.chan) ∈ keywordTokens by decide)
    (EndsWord.mark (by decide) rest)).trans (congrArg (Token.chan :: ·) (tokens_blank rest))

theorem tokens_map (key value : WrittenType) :
    tokens ((WrittenType.map key value).text.toList ++ rest) =
      .map :: .openBracket :: tokens (key.text.toList ++ ']' :: (value.text.toList ++ rest)) := by
  rw [WrittenType.text]
  simp only [String.toList_append, List.append_assoc]
  refine (tokens_keyword (show ("map", Token.map) ∈ keywordTokens by decide)
    (EndsWord.mark (by decide) _)).trans (congrArg (Token.map :: ·) ?_)
  exact tokens_openBracket _

theorem tokens_func (inputs outputs : List (Param WrittenType)) :
    tokens ((WrittenType.func inputs outputs).text.toList ++ rest) =
      .func :: .openParen ::
        tokens ((", ".intercalate (WrittenType.paramTexts inputs)).toList ++ ')' ::
          ((resultsText outputs (WrittenType.paramTexts outputs)).toList ++ rest)) := by
  rw [WrittenType.text]
  simp only [String.toList_append, List.append_assoc]
  refine (tokens_keyword (show ("func", Token.func) ∈ keywordTokens by decide)
    (EndsWord.mark (by decide) _)).trans (congrArg (Token.func :: ·) ?_)
  exact tokens_openParen _

/-- The name of a parameter comes first, and a blank separates it from the rest
    of the entry. -/
theorem tokens_paramText {τ : Type} (type : τ) (variadic : Bool) {name : String}
    (hname : IsName name) {text : String} :
    tokens ((paramText ⟨some name, type, variadic⟩ text).toList ++ rest) =
      .name name :: tokens (((if variadic then "..." else "") ++ text).toList ++ rest) := by
  have hchars : (paramText ⟨some name, type, variadic⟩ text).toList ++ rest =
      name.toList ++ (' ' :: (((if variadic then "..." else "") ++ text).toList ++ rest)) := by
    simp only [paramText, String.toList_append, List.append_assoc]
    rfl
  rw [hchars, tokens_name hname (EndsWord.mark (by decide) _), tokens_blank]

end Spelling

/-! ## The first token -/

/-- The text of a legible type begins the way its readers need it to. -/
theorem Legible.leads {w : WrittenType} (h : Legible w) {rest : List Char} (hrest : Closing rest) :
    Leads w (tokens (w.text.toList ++ rest)) := by
  cases h with
  | bare hname =>
      rw [WrittenType.text, WrittenType.nameText, tokens_name hname hrest.endsWord]
      exact .of_name hrest.startsType_mark
  | qualified hq hname =>
      rw [tokens_qualified rest hq hname]
      exact .of_name rfl
  | emptyInterface =>
      rw [tokens_emptyInterface]
      exact .of_cons rfl rfl
  | emptyStruct =>
      rw [tokens_emptyStruct]
      exact .of_cons rfl rfl
  | pointer _ =>
      rw [tokens_pointer]
      exact .of_cons rfl rfl
  | slice _ =>
      rw [tokens_slice]
      exact .of_cons rfl rfl
  | array _ =>
      rw [tokens_array]
      exact .of_cons rfl rfl
  | @channel dir elem _ =>
      rw [WrittenType.text, String.toList_append, List.append_assoc]
      cases dir with
      | recv =>
          rw [tokens_recv]
          exact .of_arrow elem _
      | send =>
          rw [tokens_send]
          exact .of_cons rfl rfl
      | both =>
          rw [tokens_both]
          exact .of_cons rfl rfl
  | map _ _ =>
      rw [tokens_map]
      exact .of_cons rfl rfl
  | func =>
      rw [tokens_func]
      exact .of_cons rfl rfl

/-- The first token of an unmarked type is no variadic mark. -/
theorem Leads.parseMark {type : WrittenType} {ts : List Token} (h : Leads type ts) :
    Go.parseMark ts = (false, ts) := by
  have hstarts := h.starts
  unfold Go.parseMark
  split
  · exact absurd hstarts Bool.false_ne_true
  · rfl

/-! ## Parameter lists -/

/-- A reader gets a type back from its text in front of anything that may follow
    a type, and a text that it reads begins as it has to. -/
structure ReadsBack (read : TypeReader) (type : WrittenType) : Prop where
  read : ∀ rest, Closing rest → read (tokens (type.text.toList ++ rest)) = some (type, tokens rest)
  leads : ∀ rest, Closing rest → Leads type (tokens (type.text.toList ++ rest))

variable {read : TypeReader}

/-- A type that may be marked, behind the name of a parameter or without one. -/
theorem parseMark_text {p : Param WrittenType} (h : ReadsBack read p.type) {rest : List Char}
    (hrest : Closing rest) :
    parseMark (tokens (((if p.variadic then "..." else "") ++ p.type.text).toList ++ rest)) =
      (p.variadic, tokens (p.type.text.toList ++ rest)) := by
  rw [String.toList_append, List.append_assoc]
  cases p.variadic with
  | true => exact congrArg parseMark (tokens_ellipsis _)
  | false => exact (h.leads rest hrest).parseMark

/-- The part of an entry behind the name is read with its mark. -/
theorem parseUnnamed_text {p : Param WrittenType} (h : ReadsBack read p.type) {rest : List Char}
    (hrest : Closing rest) :
    parseUnnamed read
        (tokens (((if p.variadic then "..." else "") ++ p.type.text).toList ++ rest)) =
      some (⟨none, p.type, p.variadic⟩, tokens rest) := by
  rw [parseUnnamed, parseMark_text h hrest, h.read rest hrest]
  rfl

/-- An entry of a parameter list is read as the parameter it was printed from. -/
theorem parseEntry_text {p : Param WrittenType} (h : ReadsBack read p.type)
    (hname : p.name = none ∨ ∃ name, p.name = some name ∧ IsName name) {rest : List Char}
    (hrest : Closing rest) :
    parseEntry read (tokens ((paramText p p.type.text).toList ++ rest)) =
      some (p, tokens rest) := by
  rcases p with ⟨name, type, variadic⟩
  have hunnamed := parseUnnamed_text h hrest
  rcases hname with rfl | ⟨name, rfl, hname⟩
  · -- Nothing stands in front of the type, so the first token decides.
    have htext : paramText (⟨none, type, variadic⟩ : Param WrittenType) type.text =
        (if variadic then "..." else "") ++ type.text := by
      rw [paramText, String.empty_append]
    rw [htext, ← hunnamed]
    unfold parseEntry
    split
    · next first more hfirst =>
      cases variadic with
      | true =>
          -- A mark is no name, so the entry cannot have begun with one.
          rw [if_pos rfl, String.toList_append, List.append_assoc] at hfirst
          exact nomatch (tokens_ellipsis _).symm.trans hfirst
      | false =>
          rw [if_neg ((h.leads rest hrest).bare first more hfirst ▸ Bool.false_ne_true), hfirst]
    · rfl
  · -- The name comes first, and what follows it shows that it is one.
    have hstarts := (h.leads rest hrest).starts
    rw [tokens_paramText rest type variadic hname, parseEntry, parseMark_text h hrest, if_pos hstarts,
      hunnamed]
    rfl

/-- No entry begins with a closing parenthesis. -/
theorem parseEntry_closeParen (hread : ∀ ts, read (.closeParen :: ts) = none) (ts : List Token) :
    parseEntry read (.closeParen :: ts) = none := by
  have hmark : parseMark (.closeParen :: ts) = (false, .closeParen :: ts) := rfl
  have hentry : parseEntry read (.closeParen :: ts) = parseUnnamed read (.closeParen :: ts) := rfl
  rw [hentry, parseUnnamed, hmark, hread]
  rfl

/-- A list of entries is read as the parameters it was printed from. -/
theorem parseEntries_text (hread : ∀ ts, read (.closeParen :: ts) = none)
    {params : List (Param WrittenType)} (hparams : ∀ p ∈ params, ReadsBack read p.type ∧
      (p.name = none ∨ ∃ name, p.name = some name ∧ IsName name)) {bound : Nat}
    (hbound : params.length < bound) (rest : List Char) :
    parseEntries read bound
        (tokens ((", ".intercalate (WrittenType.paramTexts params)).toList ++ ')' :: rest)) =
      some (params, tokens rest) := by
  induction params generalizing bound with
  | nil =>
      obtain ⟨b, rfl⟩ : ∃ b, bound = b + 1 := ⟨bound - 1, by omega⟩
      have htokens : tokens ((", ".intercalate (WrittenType.paramTexts [])).toList ++ ')' :: rest) =
          .closeParen :: tokens rest := by
        rw [WrittenType.paramTexts, String.intercalate_nil]
        exact tokens_closeParen rest
      rw [htokens, parseEntries]
      rfl
  | cons p ps ih =>
      obtain ⟨b, rfl⟩ : ∃ b, bound = b + 1 := ⟨bound - 1, by omega⟩
      rcases hparams p List.mem_cons_self with ⟨hp, hname⟩
      have hentry : ∀ after, Closing after →
          parseEntry read (tokens ((paramText p p.type.text).toList ++ after)) =
            some (p, tokens after) := fun _ hafter => parseEntry_text hp hname hafter
      -- A closing parenthesis would end the list before this entry.
      have hhead : ∀ after, Closing after →
          ¬(tokens ((paramText p p.type.text).toList ++ after)).head? = some .closeParen := by
        intro after hafter hclose
        have hread' := hentry after hafter
        cases htokens : tokens ((paramText p p.type.text).toList ++ after) with
        | nil =>
            rw [htokens] at hclose
            cases hclose
        | cons token more =>
            rw [htokens] at hclose hread'
            rw [Option.some.inj hclose, parseEntry_closeParen hread] at hread'
            cases hread'
      rw [WrittenType.paramTexts_eq, List.map_cons]
      cases ps with
      | nil =>
          rw [List.map_nil, String.intercalate_singleton, parseEntries,
            if_neg (hhead _ (.paren rest)), hentry _ (.paren rest), tokens_closeParen]
          rfl
      | cons q qs =>
          have hmore := ih (fun r hr => hparams r (List.mem_cons_of_mem _ hr))
            (Nat.lt_of_succ_lt_succ hbound)
          rw [WrittenType.paramTexts_eq] at hmore
          have htext : (", ".intercalate ((paramText p p.type.text) ::
              (q :: qs).map fun r => paramText r r.type.text)).toList ++ ')' :: rest =
                (paramText p p.type.text).toList ++ ',' :: ' ' ::
                  ((", ".intercalate ((q :: qs).map
                    fun r => paramText r r.type.text)).toList ++ ')' :: rest) := by
            rw [List.map_cons, String.intercalate_cons_cons]
            simp only [String.toList_append, List.append_assoc]
            rfl
          rw [htext, parseEntries, if_neg (hhead _ (.comma _)), hentry _ (.comma _), tokens_comma,
            tokens_blank]
          simp only [bind, Option.bind, hmore]
          rfl

/-- Entries that all have names stand for themselves. -/
theorem shareTypes_of_named {params : List (Param WrittenType)}
    (h : ∀ p ∈ params, ∃ name, p.name = some name ∧ IsName name) :
    shareTypes params = some params := by
  induction params with
  | nil => rfl
  | cons p ps ih =>
      rcases p with ⟨name, type, variadic⟩
      rcases h _ List.mem_cons_self with ⟨name, rfl, -⟩
      rw [shareTypes, ih fun q hq => h q (List.mem_cons_of_mem _ hq)]
      rfl

/-- Entries that are named alike stand for themselves. -/
theorem resolveEntries_of_namedAlike {params : List (Param WrittenType)} (h : NamedAlike params) :
    resolveEntries params = some params := by
  -- A list without entries is named alike in both ways.
  by_cases hnone : params.all (·.name.isNone) = true
  · rw [resolveEntries, if_pos hnone]
  · rw [resolveEntries, if_neg hnone]
    rcases h with h | h
    · refine absurd (List.all_eq_true.mpr fun p hp => ?_) hnone
      rw [h p hp]
      rfl
    · exact shareTypes_of_named h

/-- In a list that is named alike every parameter is without a name or has a
    usable one. -/
theorem NamedAlike.name {τ : Type} {params : List (Param τ)} (h : NamedAlike params)
    {p : Param τ} (hp : p ∈ params) :
    p.name = none ∨ ∃ name, p.name = some name ∧ IsName name :=
  h.imp (fun h => h p hp) (fun h => h p hp)

/-- A list of parameters is read as the list it was printed from. -/
theorem parseParams_text (hread : ∀ ts, read (.closeParen :: ts) = none)
    {params : List (Param WrittenType)} (halike : NamedAlike params)
    (hparams : ∀ p ∈ params, ReadsBack read p.type) {bound : Nat}
    (hbound : params.length < bound) (rest : List Char) :
    parseParams read bound
        (tokens ((", ".intercalate (WrittenType.paramTexts params)).toList ++ ')' :: rest)) =
      some (params, tokens rest) := by
  have hentries := parseEntries_text hread (fun p hp => ⟨hparams p hp, halike.name hp⟩) hbound rest
  simp only [parseParams, hentries, bind, Option.bind, resolveEntries_of_namedAlike halike]
  rfl

/-- The results of a function type are read as the ones they were printed
    from. -/
theorem parseResults_text (hread : ∀ ts, read (.closeParen :: ts) = none)
    {params : List (Param WrittenType)} (halike : NamedAlike params)
    (hmarks : ∀ p ∈ params, p.variadic = false) (hparams : ∀ p ∈ params, ReadsBack read p.type)
    {bound : Nat} (hbound : params.length < bound) {rest : List Char} (hrest : Closing rest) :
    parseResults read bound
        (tokens ((resultsText params (WrittenType.paramTexts params)).toList ++ rest)) =
      some (params, tokens rest) := by
  have hlist : ∀ {text : String},
      text = " (" ++ ", ".intercalate (WrittenType.paramTexts params) ++ ")" →
      parseResults read bound (tokens (text.toList ++ rest)) = some (params, tokens rest) := by
    rintro _ rfl
    have htokens : tokens ((" (" ++ ", ".intercalate (WrittenType.paramTexts params) ++
        ")").toList ++ rest) = .openParen ::
          tokens ((", ".intercalate (WrittenType.paramTexts params)).toList ++ ')' :: rest) := by
      simp only [String.toList_append, List.append_assoc]
      exact (tokens_blank _).trans (tokens_openParen _)
    rw [htokens, parseResults, if_pos List.head?_cons]
    exact parseParams_text hread halike hparams hbound rest
  -- A single result without a name is the one case that has no parentheses.
  match params with
  | [] => exact hrest.parseResults read bound
  | [⟨none, type, variadic⟩] =>
      obtain rfl : variadic = false := hmarks _ List.mem_cons_self
      have htype := hparams _ List.mem_cons_self
      have hleads := htype.leads rest hrest
      have htokens : tokens ((resultsText [(⟨none, type, false⟩ : Param WrittenType)]
          (WrittenType.paramTexts [⟨none, type, false⟩])).toList ++ rest) =
            tokens (type.text.toList ++ rest) := by
        rw [WrittenType.paramTexts_eq, List.map_cons, List.map_nil, resultsText,
          String.intercalate_singleton, paramText, if_neg Bool.false_ne_true, String.empty_append,
          String.empty_append, String.toList_append, List.append_assoc]
        exact tokens_blank _
      rw [htokens, parseResults, if_neg hleads.noParen, if_pos hleads.starts,
        htype.read rest hrest]
      rfl
  | [⟨some _, _, _⟩] => exact hlist rfl
  | ⟨none, _, _⟩ :: _ :: _ => exact hlist rfl
  | ⟨some _, _, _⟩ :: _ :: _ => exact hlist rfl

/-! ## Whole types -/

/-- The text of a parameter list is long enough to bound the number and the
    types of the parameters. -/
theorem length_paramTexts (params : List (Param WrittenType)) :
    params.length ≤ (", ".intercalate (WrittenType.paramTexts params)).length + 1 ∧
      ∀ p ∈ params, p.type.text.length ≤
        (", ".intercalate (WrittenType.paramTexts params)).length := by
  have hparam : ∀ p : Param WrittenType, p.type.text.length ≤ (paramText p p.type.text).length := by
    intro p
    rw [paramText, String.length_append]
    exact Nat.le_add_left _ _
  rw [WrittenType.paramTexts_eq]
  induction params with
  | nil => exact ⟨Nat.zero_le _, fun p hp => absurd hp List.not_mem_nil⟩
  | cons p ps ih =>
      cases ps with
      | nil =>
          rw [List.map_cons, List.map_nil, String.intercalate_singleton]
          refine ⟨Nat.le_add_left _ _, fun r hr => ?_⟩
          obtain rfl := List.mem_singleton.mp hr
          exact hparam r
      | cons q qs =>
          have hjoined : (", ".intercalate ((p :: q :: qs).map
              fun r => paramText r r.type.text)).length = (paramText p p.type.text).length + 2 +
                (", ".intercalate ((q :: qs).map fun r => paramText r r.type.text)).length := by
            rw [List.map_cons, List.map_cons, String.intercalate_cons_cons, String.length_append,
              String.length_append]
            rfl
          rw [hjoined, List.length_cons]
          refine ⟨by omega, fun r hr => ?_⟩
          rcases List.mem_cons.mp hr with rfl | hr
          · exact Nat.le_trans (hparam r) (by omega)
          · exact Nat.le_trans (ih.2 r hr) (Nat.le_add_left _ _)

/-- The text of a list of results is no shorter than the texts in it. -/
theorem length_resultsText (params : List (Param WrittenType)) :
    (", ".intercalate (WrittenType.paramTexts params)).length ≤
      (resultsText params (WrittenType.paramTexts params)).length := by
  match params with
  | [] => exact Nat.le_of_eq rfl
  | [⟨none, _, _⟩] =>
      rw [resultsText, String.length_append]
      exact Nat.le_add_left _ _
  | [⟨some _, _, _⟩] | ⟨none, _, _⟩ :: _ :: _ | ⟨some _, _, _⟩ :: _ :: _ =>
      simp only [resultsText, String.length_append]
      omega

/-- No type begins with a closing parenthesis. -/
theorem parseType_closeParen (bound : Nat) (ts : List Token) :
    parseType bound (.closeParen :: ts) = none := by
  cases bound <;> rfl

/-- A type is read back with every bound above the length of its text. -/
def ReadsWithin (type : WrittenType) : Prop :=
  ∀ bound, type.text.length < bound → ReadsBack (parseType bound) type

/-- An arrow at the head of the element of a two-way channel is that of an
    element in parentheses only, so the keyword keeps off it. -/
theorem parseDirection_text {elem : WrittenType} {ts : List Token} (h : Leads elem ts)
    (hparens : WrittenType.needsParens .both elem = false) :
    parseDirection ts = (.both, ts) := by
  unfold parseDirection
  split
  · -- An arrow at the front makes the element a receiving channel, which would
    -- be in parentheses.
    rcases h.arrow rfl with ⟨inner, rfl⟩
    exact absurd hparens Bool.true_eq_false.mp
  · rfl

/-- A channel whose element is in parentheses is read if its element is. -/
theorem parseType_channel_parens {elem : WrittenType} (h : ReadsWithin elem)
    (hparens : WrittenType.needsParens .both elem = true) {bound : Nat}
    (hbound : (WrittenType.channel .both elem).text.length < bound) (rest : List Char) :
    parseType bound (tokens ((WrittenType.channel .both elem).text.toList ++ rest)) =
      some (.channel .both elem, tokens rest) := by
  have hlen : (WrittenType.channel .both elem).text.length = 5 + (1 + elem.text.length + 1) := by
    rw [WrittenType.text, if_pos hparens, String.length_append, String.length_append,
      String.length_append]
    rfl
  have htokens : tokens ((WrittenType.channel .both elem).text.toList ++ rest) =
      .chan :: .openParen :: tokens (elem.text.toList ++ ')' :: rest) := by
    rw [WrittenType.text, if_pos hparens]
    simp only [String.toList_append, List.append_assoc]
    exact (tokens_both _).trans (congrArg (Token.chan :: ·) (tokens_openParen _))
  -- The parentheses are one level of the grammar and the channel is another.
  obtain ⟨b, rfl, hb⟩ : ∃ b, bound = b + 2 ∧ elem.text.length < b :=
    ⟨bound - 2, by omega, by omega⟩
  have helem := (h b hb).read _ (.paren rest)
  simp only [htokens, parseType, parseDirection, bind, Option.bind, helem, tokens_closeParen,
    expect, if_true]
  rfl

/-- A channel is read if its element is. -/
theorem parseType_channel {dir : Direction} {elem : WrittenType} (h : ReadsWithin elem)
    {bound : Nat} (hbound : (WrittenType.channel dir elem).text.length < bound) {rest : List Char}
    (hrest : Closing rest) :
    parseType bound (tokens ((WrittenType.channel dir elem).text.toList ++ rest)) =
      some (.channel dir elem, tokens rest) := by
  by_cases hparens : WrittenType.needsParens dir elem = true
  · -- Only a two-way channel has its element in parentheses.
    obtain rfl : dir = .both := by
      cases dir <;> first | rfl | cases hparens
    exact parseType_channel_parens h hparens hbound rest
  · have hmark : 0 < (channelMark dir).length := by
      cases dir <;> decide
    have hlen : (WrittenType.channel dir elem).text.length =
        (channelMark dir).length + elem.text.length := by
      rw [WrittenType.text, if_neg hparens, String.length_append]
    obtain ⟨b, rfl, hb⟩ : ∃ b, bound = b + 1 ∧ elem.text.length < b :=
      ⟨bound - 1, by omega, by omega⟩
    rcases h b hb with ⟨hread, hleads⟩
    rw [WrittenType.text, if_neg hparens, String.toList_append, List.append_assoc]
    cases dir with
    | recv =>
        rw [tokens_recv, parseType, hread rest hrest]
        rfl
    | send =>
        simp only [tokens_send, parseType, parseDirection, hread rest hrest]
        rfl
    | both =>
        -- Nothing parts the keyword from the element, which could begin with an
        -- arrow.
        have hdir := parseDirection_text (hleads rest hrest) (Bool.eq_false_iff.mpr hparens)
        simp only [tokens_both, parseType, hdir, hread rest hrest]
        rfl

/-- A function type is read if the types of its parameters and results are. -/
theorem parseType_func {inputs outputs : List (Param WrittenType)} (hin : NamedAlike inputs)
    (hout : NamedAlike outputs) (hmarks : ∀ p ∈ outputs, p.variadic = false)
    (hinputs : ∀ p ∈ inputs, ReadsWithin p.type) (houtputs : ∀ p ∈ outputs, ReadsWithin p.type)
    {bound : Nat} (hbound : (WrittenType.func inputs outputs).text.length < bound)
    {rest : List Char} (hrest : Closing rest) :
    parseType bound (tokens ((WrittenType.func inputs outputs).text.toList ++ rest)) =
      some (.func inputs outputs, tokens rest) := by
  have hlen : (WrittenType.func inputs outputs).text.length =
      5 + (", ".intercalate (WrittenType.paramTexts inputs)).length + 1 +
        (resultsText outputs (WrittenType.paramTexts outputs)).length := by
    simp only [WrittenType.text, String.length_append]
    rfl
  have hresults := length_resultsText outputs
  -- The bound has to do for the number of parameters as well as for their types.
  rcases length_paramTexts inputs with ⟨hcountIn, hlenIn⟩
  rcases length_paramTexts outputs with ⟨hcountOut, hlenOut⟩
  obtain ⟨b, rfl⟩ : ∃ b, bound = b + 1 := ⟨bound - 1, by omega⟩
  have hreadIn : ∀ p ∈ inputs, ReadsBack (parseType b) p.type := by
    intro p hp
    have := hlenIn p hp
    exact hinputs p hp b (by omega)
  have hreadOut : ∀ p ∈ outputs, ReadsBack (parseType b) p.type := by
    intro p hp
    have := hlenOut p hp
    exact houtputs p hp b (by omega)
  have hparams := parseParams_text (parseType_closeParen b) hin hreadIn
    (show inputs.length < b by omega)
    ((resultsText outputs (WrittenType.paramTexts outputs)).toList ++ rest)
  have hend := parseResults_text (parseType_closeParen b) hout hmarks hreadOut
    (show outputs.length < b by omega) hrest
  simp only [tokens_func, parseType, bind, Option.bind, hparams, hend]
  rfl

/-- A legible type is read from the head of a text, and what follows it is left
    over. -/
theorem parseType_text {w : WrittenType} (h : Legible w) {bound : Nat}
    (hbound : w.text.length < bound) {rest : List Char} (hrest : Closing rest) :
    parseType bound (tokens (w.text.toList ++ rest)) = some (w, tokens rest) := by
  -- The induction is on the type; the bound and what follows change with every
  -- part. A part is shorter than the whole by what is written around it, so
  -- one level less of the bound still suffices for it.
  induction h generalizing bound rest with
  | @bare name hname =>
      obtain ⟨b, rfl⟩ : ∃ b, bound = b + 1 := ⟨bound - 1, by omega⟩
      rw [WrittenType.text, WrittenType.nameText, tokens_name hname hrest.endsWord, parseType]
      exact hrest.parseName name
  | @qualified qualifier name hq hname =>
      obtain ⟨b, rfl⟩ : ∃ b, bound = b + 1 := ⟨bound - 1, by omega⟩
      rw [tokens_qualified rest hq hname, tokens_name hname hrest.endsWord]
      rfl
  | emptyInterface =>
      obtain ⟨b, rfl⟩ : ∃ b, bound = b + 1 := ⟨bound - 1, by omega⟩
      rw [tokens_emptyInterface]
      rfl
  | emptyStruct =>
      obtain ⟨b, rfl⟩ : ∃ b, bound = b + 1 := ⟨bound - 1, by omega⟩
      rw [tokens_emptyStruct]
      rfl
  | @pointer elem h ih =>
      have hlen : (WrittenType.pointer elem).text.length = 1 + elem.text.length := by
        rw [WrittenType.text, String.length_append]
        rfl
      obtain ⟨b, rfl, hb⟩ : ∃ b, bound = b + 1 ∧ elem.text.length < b :=
        ⟨bound - 1, by omega, by omega⟩
      rw [tokens_pointer, parseType, ih hb hrest]
      rfl
  | @slice elem h ih =>
      have hlen : (WrittenType.slice elem).text.length = 2 + elem.text.length := by
        rw [WrittenType.text, String.length_append]
        rfl
      obtain ⟨b, rfl, hb⟩ : ∃ b, bound = b + 1 ∧ elem.text.length < b :=
        ⟨bound - 1, by omega, by omega⟩
      rw [tokens_slice, parseType, ih hb hrest]
      rfl
  | @array len elem h ih =>
      have hlen : elem.text.length < (WrittenType.array len elem).text.length := by
        simp only [WrittenType.text, String.length_append]
        exact Nat.lt_add_of_pos_left (Nat.succ_pos _)
      obtain ⟨b, rfl, hb⟩ : ∃ b, bound = b + 1 ∧ elem.text.length < b :=
        ⟨bound - 1, by omega, by omega⟩
      rw [tokens_array, parseType, ih hb hrest]
      rfl
  | channel h ih =>
      exact parseType_channel (fun _ hb => ⟨fun _ => ih hb, fun _ => h.leads⟩) hbound hrest
  | @map key value hkey hvalue ihKey ihValue =>
      have hlen : (WrittenType.map key value).text.length =
          4 + key.text.length + 1 + value.text.length := by
        simp only [WrittenType.text, String.length_append]
        rfl
      obtain ⟨b, rfl, hbKey, hbValue⟩ :
          ∃ b, bound = b + 1 ∧ key.text.length < b ∧ value.text.length < b :=
        ⟨bound - 1, by omega, by omega, by omega⟩
      simp only [tokens_map, parseType, bind, Option.bind, ihKey hbKey (.bracket _),
        tokens_closeBracket, expect, if_true, ihValue hbValue hrest]
      rfl
  | func hin hout hmarks hinputs houtputs ihIn ihOut =>
      exact parseType_func hin hout hmarks
        (fun p hp _ hb => ⟨fun _ => ihIn p hp hb, fun _ => (hinputs p hp).leads⟩)
        (fun p hp _ hb => ⟨fun _ => ihOut p hp hb, fun _ => (houtputs p hp).leads⟩) hbound hrest

/-- A legible type is read from its text. -/
theorem ofText?_text {w : WrittenType} (h : Legible w) : WrittenType.ofText? w.text = some w := by
  have hread := parseType_text h (Nat.lt_succ_self w.text.length) .nil
  rw [List.append_nil, tokens] at hread
  rw [WrittenType.ofText?, hread]

/-! ## Printed types -/

/-- The names and marks of a type are ones that its text can tell, those of its
    parts aside. -/
def ReadableIn : TypeExpr → Prop
  | .predeclared name =>
    IsName name ∨ name = "interface\x7b\x7d" ∨ name = "struct\x7b\x7d"
  | .named _ name => IsName name
  | .func inputs outputs => MarksFit inputs outputs ∧ NamedAlike inputs ∧ NamedAlike outputs
  | _ => True

/-- The names and marks everywhere in a type are ones that its text can tell. -/
def TypeExpr.Readable (n : TypeExpr) : Prop :=
  n.Everywhere ReadableIn

/-- Every alias of a table that is written in front of a name is a name
    itself. -/
def AliasTable.Readable (aliases : AliasTable) : Prop :=
  ∀ entry ∈ aliases.entries, entry.2 ≠ "" → IsName entry.2

/-- Parameters stay named alike in their written form. -/
theorem NamedAlike.written {params : List (Param TypeExpr)} (h : NamedAlike params)
    (qualifier : Package → Option String) :
    NamedAlike (TypeExpr.writtenParams qualifier params) := by
  rw [TypeExpr.writtenParams_eq]
  unfold NamedAlike
  simp only [List.forall_mem_map]
  exact h

/-- A readable type is well marked. -/
theorem TypeExpr.Readable.wellMarked {n : TypeExpr} (h : n.Readable) : n.WellMarked := by
  intro t ht
  have hrule := h t ht
  cases t with
  | func inputs outputs => exact hrule.1
  | _ => trivial

/-- The written form of a readable type is legible. -/
theorem TypeExpr.Readable.legible {aliases : AliasTable} (haliases : aliases.Readable)
    {n : TypeExpr} (h : n.Readable) : Legible (n.written aliases.qualifier) := by
  induction n using TypeExpr.inductOn with
  | predeclared name =>
      rcases TypeExpr.everywhere_predeclared.mp h with hname | rfl | rfl
      · exact .bare hname
      · exact .emptyInterface
      · exact .emptyStruct
  | named package name =>
      have hname : IsName name := TypeExpr.everywhere_named.mp h
      rw [TypeExpr.written]
      cases hqualifier : package.bind aliases.qualifier with
      | none => exact .bare hname
      | some qualifier =>
          refine .qualified ?_ hname
          rcases Option.bind_eq_some_iff.mp hqualifier with ⟨package, -, hfilter⟩
          rcases Option.filter_eq_some_iff.mp hfilter with ⟨halias, hne⟩
          exact haliases _ ((aliases.mem_entries_iff _ _).mpr halias) (bne_iff_ne.mp hne)
  | pointer elem ih => exact .pointer (ih (TypeExpr.everywhere_pointer.mp h).2)
  | slice elem ih => exact .slice (ih (TypeExpr.everywhere_slice.mp h).2)
  | array len elem ih => exact .array (ih (TypeExpr.everywhere_array.mp h).2)
  | channel dir elem ih => exact .channel (ih (TypeExpr.everywhere_channel.mp h).2)
  | map key value ihKey ihValue =>
      rcases TypeExpr.everywhere_map.mp h with ⟨-, hkey, hvalue⟩
      exact .map (ihKey hkey) (ihValue hvalue)
  | func inputs outputs ihIn ihOut =>
      rcases TypeExpr.everywhere_func.mp h with ⟨⟨hmarks, halikeIn, halikeOut⟩, hin, hout⟩
      refine .func (halikeIn.written _) (halikeOut.written _) ?_ ?_ ?_
      · rw [TypeExpr.writtenParams_eq, List.forall_mem_map]
        exact hmarks.2
      · rw [TypeExpr.writtenParams_eq, List.forall_mem_map]
        exact fun p hp => ihIn p hp (hin p hp)
      · rw [TypeExpr.writtenParams_eq, List.forall_mem_map]
        exact fun p hp => ihOut p hp (hout p hp)

/-- A readable type is printed, and the grammar reads the whole text as its
    written form. -/
theorem ofText?_render {n : TypeExpr} {aliases : AliasTable} (h : n.Readable)
    (haliases : aliases.Readable) :
    ∃ text, (n.render aliases).result = .ok text ∧
      WrittenType.ofText? text = some (n.written aliases.qualifier) :=
  ⟨_, TypeExpr.render_of_wellMarked aliases h.wellMarked, ofText?_text (h.legible haliases)⟩

/-- The text is `chan (<-chan func(at ...geo.Point) (n int, err error))`, where
    the type would be another one without the parentheses around the element. -/
theorem ofText?_render_nested : ∃ text,
    ((TypeExpr.channel .both (.channel .recv (.func
      [⟨some "at", .named (some ⟨"example.com/geo", "geo"⟩) "Point", true⟩]
      [⟨some "n", .predeclared "int", false⟩, ⟨some "err", .predeclared "error", false⟩]))).render
        (AliasTable.empty.insert "example.com/geo" "geo")).result = .ok text ∧
    WrittenType.ofText? text = some (.channel .both (.channel .recv (.func
      [⟨some "at", .named (some "geo") "Point", true⟩]
      [⟨some "n", .named none "int", false⟩, ⟨some "err", .named none "error", false⟩]))) := by
  refine ofText?_render ?_ ?_
  · have hnames : IsName "at" ∧ IsName "Point" ∧ IsName "n" ∧ IsName "int" ∧ IsName "err" ∧
        IsName "error" := by
      decide
    simp [TypeExpr.Readable, TypeExpr.everywhere_channel, TypeExpr.everywhere_func,
      TypeExpr.everywhere_named, TypeExpr.everywhere_predeclared, ReadableIn, MarksFit, NamedAlike,
      hnames]
  · have hgeo : IsName "geo" := by
      decide
    simp [AliasTable.Readable, AliasTable.insert, AliasTable.empty, insertEntry, hgeo]

end Go

end FunctionalOptions
