import FunctionalOptions.Proofs.Grammar.Signatures

/-!
# Texts Tell Types Apart

Two types with one text have one written form. For legible types this is a
corollary of reading them back, and legible they are, but for one thing. An
alias is the short name of a package, which has to be an identifier and may
well be a keyword, and the grammar has no name that is qualified by `func`. No
text becomes ambiguous by such an alias, since a keyword has no point behind it
anywhere else; the parser is just not made for it.

So the qualifiers are made into names first. A letter in front of a word turns
every identifier into a name, because no keyword begins with that letter. The
letter can be put there in the text or in the type. In the text it goes in
front of every word with a point behind it, and in the type in front of every
qualifier, and both come to the same. Types with one text then still have one
text when their qualifiers have been changed, and those texts can be read.

## Main definitions

* `WrittenType.requalify`: A written type with other qualifiers.
* `freshen`: Tokens in which the words in front of points are names.
* `TellableIn`: The conditions on a part of a type under which its text tells
  it.

## Theorems

* `TypeExpr.written_eq_of`: One choice of qualifiers tells types apart when
  another does that can be recovered from it.
* `freshen_written`: The tokens of a type with changed qualifiers are the
  freshened tokens of the type.
* `TypeExpr.written_eq_of_text`: Types with one text have one written form.
-/

namespace FunctionalOptions

namespace Go

/-! ## Other qualifiers -/

namespace WrittenType

mutual

/-- The type with other qualifiers in the places of the ones it has. -/
def requalify (other : String → Option String) : WrittenType → WrittenType
  | .named qualifier name => .named (qualifier.bind other) name
  | .pointer elem => .pointer (elem.requalify other)
  | .slice elem => .slice (elem.requalify other)
  | .array len elem => .array len (elem.requalify other)
  | .channel dir elem => .channel dir (elem.requalify other)
  | .map key value => .map (key.requalify other) (value.requalify other)
  | .func inputs outputs => .func (requalifyParams other inputs) (requalifyParams other outputs)

/-- Parameters with other qualifiers in their types. -/
def requalifyParams (other : String → Option String) :
    List (Param WrittenType) → List (Param WrittenType)
  | [] => []
  | p :: ps => requalifyParam other p :: requalifyParams other ps

/-- A parameter with other qualifiers in its type. -/
def requalifyParam (other : String → Option String) : Param WrittenType → Param WrittenType
  | ⟨name, type, variadic⟩ => ⟨name, type.requalify other, variadic⟩

end

/-- Parameters get other qualifiers one by one. -/
theorem requalifyParams_eq (other : String → Option String) (params : List (Param WrittenType)) :
    requalifyParams other params =
      params.map fun p => ⟨p.name, p.type.requalify other, p.variadic⟩ := by
  induction params with
  | nil => rfl
  | cons p ps ih => rw [requalifyParams, ih, List.map_cons, requalifyParam]

end WrittenType

namespace TypeExpr

variable {f g : Package → Option String} {other : String → Option String}

/-- A choice of qualifiers that depends on another one only gives the written
    form of the other with its qualifiers changed. -/
theorem written_requalify {n : TypeExpr} (h : ∀ p ∈ n.packages, g p = (f p).bind other) :
    n.written g = (n.written f).requalify other := by
  have hparams : ∀ params : List (Param TypeExpr),
      (∀ p ∈ params, p.type.written g = (p.type.written f).requalify other) →
        writtenParams g params = WrittenType.requalifyParams other (writtenParams f params) := by
    intro params hparams
    rw [writtenParams_eq, writtenParams_eq, WrittenType.requalifyParams_eq, List.map_map]
    exact List.map_congr_left fun p hp => by simp [hparams p hp]
  -- Declared names have the qualifiers; the rest passes the change on to its parts.
  induction n using inductOn with
  | predeclared name => rfl
  | named package name =>
      cases package with
      | none => rfl
      | some package => exact congrArg (WrittenType.named · name) (h package List.mem_cons_self)
  | pointer elem ih => rw [written, written, WrittenType.requalify, ih h]
  | slice elem ih => rw [written, written, WrittenType.requalify, ih h]
  | array len elem ih => rw [written, written, WrittenType.requalify, ih h]
  | channel dir elem ih => rw [written, written, WrittenType.requalify, ih h]
  | map key value ihKey ihValue =>
      rw [written, written, WrittenType.requalify,
        ihKey fun p hp => h p (List.mem_append_left _ hp),
        ihValue fun p hp => h p (List.mem_append_right _ hp)]
  | func inputs outputs ihIn ihOut =>
      simp only [packages, paramsPackages_eq, List.mem_append, List.mem_flatMap] at h
      rw [written, written, WrittenType.requalify,
        hparams inputs fun p hp => ihIn p hp fun package hp' => h package (Or.inl ⟨p, hp, hp'⟩),
        hparams outputs fun p hp => ihOut p hp fun package hp' => h package (Or.inr ⟨p, hp, hp'⟩)]

/-- Types that are written alike under one choice of qualifiers are written
    alike under every choice that depends on it only. -/
theorem written_eq_of {a b : TypeExpr} (ha : ∀ p ∈ a.packages, g p = (f p).bind other)
    (hb : ∀ p ∈ b.packages, g p = (f p).bind other) (h : a.written f = b.written f) :
    a.written g = b.written g := by
  rw [written_requalify ha, h, ← written_requalify hb]

end TypeExpr

/-! ## Qualifiers made into names -/

/-- The name that is made of a qualifier. -/
def freshName (qualifier : String) : String :=
  "x" ++ qualifier

/-- What is made of an identifier is a name, whether or not the identifier is a
    keyword. -/
theorem isName_freshName {qualifier : String} (h : isIdentifier qualifier = true) :
    IsName (freshName qualifier) := by
  have hchars : (freshName qualifier).toList = 'x' :: qualifier.toList := by
    rw [freshName, String.toList_append]
    rfl
  constructor
  · rcases word_of_isIdentifier h with ⟨c, more, hqualifier, -, hparts⟩
    have hletter : isNameStart 'x' = true := by decide
    simp only [isIdentifier, hchars, hqualifier, hletter, Bool.true_and]
    exact List.all_eq_true.mpr hparts
  · -- No keyword begins with the letter.
    have htable : ∀ word ∈ keywords, word.toList.head? ≠ some 'x' := by decide
    refine Bool.eq_false_iff.mpr fun hkeyword => ?_
    rw [isKeyword, List.contains_iff_mem] at hkeyword
    exact htable _ hkeyword (by rw [hchars, List.head?_cons])

namespace Token

/-- The token with a word that is a name now, if it has one. -/
def fresh : Token → Token
  | .name text => .name (freshName text)
  | .chan => .name (freshName "chan")
  | .func => .name (freshName "func")
  | .interface => .name (freshName "interface")
  | .map => .name (freshName "map")
  | .struct => .name (freshName "struct")
  | .reserved word => .name (freshName word)
  | token => token

theorem fresh_ofKeyword (word : String) : (ofKeyword word).fresh = .name (freshName word) := by
  unfold ofKeyword
  split
  · next h => rw [h, fresh]
  split
  · next h => rw [h, fresh]
  split
  · next h => rw [h, fresh]
  split
  · next h => rw [h, fresh]
  split
  · next h => rw [h, fresh]
  · rfl

/-- An identifier becomes the name that is made of it, keyword or not. -/
theorem fresh_ofWord {text : String} (h : isIdentifier text = true) :
    (ofWord text.toList).fresh = .name (freshName text) := by
  simp only [ofWord, String.ofList_toList, h, if_true]
  split
  · exact fresh_ofKeyword text
  · rfl

end Token

/-- The tokens with every word in front of a point made into a name. -/
def freshen : List Token → List Token
  | [] => []
  | token :: rest => (if rest.head? = some .dot then token.fresh else token) :: freshen rest

section Freshen

variable {token : Token} {rest : List Token}

/-- What no point follows stays as it is. -/
theorem freshen_cons (h : rest.head? ≠ some .dot) :
    freshen (token :: rest) = token :: freshen rest := by
  rw [freshen, if_neg h]

/-- A token without a word stays as it is. -/
theorem freshen_mark (h : token.fresh = token) (rest : List Token) :
    freshen (token :: rest) = token :: freshen rest := by
  rw [freshen, h, ite_self]

/-- A word in front of a point becomes a name. -/
theorem freshen_dot (token : Token) (rest : List Token) :
    freshen (token :: .dot :: rest) = token.fresh :: .dot :: freshen rest := by
  rw [freshen, List.head?_cons, if_pos rfl, freshen_mark rfl]

/-- No point comes to stand at the front. -/
theorem head?_of_freshen {tokens : List Token} (h : (freshen tokens).head? ≠ some .dot) :
    tokens.head? ≠ some .dot := by
  rintro hdot
  cases tokens with
  | nil => exact nomatch hdot
  | cons token rest =>
      obtain rfl := Option.some.inj hdot
      exact h (by rw [freshen_mark rfl]; rfl)

end Freshen

/-! ## Two choices of qualifiers -/

/-- The qualifiers made into names. -/
def freshQualifier (qualifier : Package → Option String) (package : Package) : Option String :=
  (qualifier package).map freshName

/-- The conditions on a part of a type under which its text tells it: those of
    validation, those of the grammar on names, and that a qualifier is an
    identifier. -/
structure TellableIn (qualifier : Package → Option String) (n : TypeExpr) : Prop where
  valid : ValidIn n
  named : NamesFitIn n
  qualified : ∀ package name, n = .named (some package) name →
    ∀ q ∈ qualifier package, isIdentifier q = true

/-- Freshened, the tokens of a text in front of anything that may follow a type
    are those of another text; and a type begins in the other one. -/
structure Freshens (text fresh : String) : Prop where
  freshened : ∀ ⦃rest rest'⦄, Closing rest → Closing rest' → freshen (tokens rest) = tokens rest' →
    freshen (tokens (text.toList ++ rest)) = tokens (fresh.toList ++ rest')
  starts : ∀ ⦃rest⦄, Closing rest → startsType (tokens (fresh.toList ++ rest)) = true

/-- No point stands where a type begins. -/
theorem head?_of_startsType {ts : List Token} (h : startsType ts = true) :
    ts.head? ≠ some .dot := by
  intro hdot
  cases ts with
  | nil => exact nomatch hdot
  | cons token rest =>
      obtain rfl := Option.some.inj hdot
      exact Bool.false_ne_true h

/-- No point follows a type. -/
theorem Closing.head? {rest : List Char} (h : Closing rest) : (tokens rest).head? ≠ some .dot := by
  rcases h.tokens_eq with htokens | ⟨_, _, htokens, rfl | rfl | rfl⟩ <;> rw [htokens] <;> simp

section Texts

variable {rest rest' : List Char}

/-- No point stands at the front of a text that begins like a type when it has
    been freshened. -/
theorem Freshens.head? {text fresh : String} (h : Freshens text fresh) (hrest : Closing rest)
    (hrest' : Closing rest') (heq : freshen (tokens rest) = tokens rest') :
    (tokens (text.toList ++ rest)).head? ≠ some .dot := by
  refine head?_of_freshen ?_
  rw [h.freshened hrest hrest' heq]
  exact head?_of_startsType (h.starts hrest')

/-- A name with a qualifier that may be a keyword, or without one. -/
theorem freshen_named {qualifier : Option String} {name : String} (hname : IsName name)
    (hq : ∀ q ∈ qualifier, isIdentifier q = true) (hrest : Closing rest) (hrest' : Closing rest')
    (heq : freshen (tokens rest) = tokens rest') :
    freshen (tokens ((WrittenType.named qualifier name).text.toList ++ rest)) =
      tokens ((WrittenType.named (qualifier.map freshName) name).text.toList ++ rest') := by
  have hbare : freshen (tokens (name.toList ++ rest)) = tokens (name.toList ++ rest') := by
    rw [tokens_name hname hrest.endsWord, tokens_name hname hrest'.endsWord,
      freshen_cons hrest.head?, heq]
  cases qualifier with
  | none => exact hbare
  | some q =>
      -- The point is right behind the qualifier, so that is the word to change.
      have hid := hq q rfl
      rw [Option.map_some, tokens_qualifier rest hid hname,
        tokens_qualified rest' (isName_freshName hid) hname, freshen_dot, hbare,
        Token.fresh_ofWord hid]

/-- A text is put in parentheses. -/
theorem Freshens.parens {text fresh : String} (h : Freshens text fresh) :
    Freshens ("(" ++ text ++ ")") ("(" ++ fresh ++ ")") := by
  have htokens : ∀ (text : String) (rest : List Char),
      tokens (("(" ++ text ++ ")").toList ++ rest) =
        .openParen :: tokens (text.toList ++ ')' :: rest) := by
    intro text rest
    simp only [String.toList_append, List.append_assoc]
    exact tokens_openParen _
  constructor
  · intro rest rest' hrest hrest' heq
    have hclose : freshen (tokens (')' :: rest)) = tokens (')' :: rest') := by
      rw [tokens_closeParen, tokens_closeParen, freshen_mark rfl, heq]
    rw [htokens, htokens, freshen_mark rfl, h.freshened (.paren rest) (.paren rest') hclose]
  · intro rest hrest
    rw [htokens]
    rfl

/-- The element of a channel, in parentheses or not, behind the mark of the
    channel. -/
theorem freshen_channel {text fresh : String} (h : Freshens text fresh) (dir : Direction)
    (hrest : Closing rest) (hrest' : Closing rest') (heq : freshen (tokens rest) = tokens rest') :
    freshen (tokens ((channelMark dir ++ text).toList ++ rest)) =
      tokens ((channelMark dir ++ fresh).toList ++ rest') := by
  have helem := h.freshened hrest hrest' heq
  simp only [String.toList_append, List.append_assoc]
  -- Only an element right behind the keyword could have a point in front.
  cases dir with
  | recv =>
      rw [tokens_recv, tokens_recv, freshen_mark rfl, freshen_cons (h.head? hrest hrest' heq),
        helem]
  | send => rw [tokens_send, tokens_send, freshen_cons (by simp), freshen_mark rfl, helem]
  | both => rw [tokens_both, tokens_both, freshen_cons (h.head? hrest hrest' heq), helem]

/-! ### Parameter lists -/

/-- The texts of parameters, given the qualifier of each package. -/
def TypeExpr.textsOf (qualifier : Package → Option String) (params : List (Param TypeExpr)) :
    List String :=
  params.map fun p => paramText p (p.type.written qualifier).text

variable {p : Param TypeExpr} {text fresh : String}

/-- A parameter, in front of a comma or a parenthesis. -/
theorem freshen_param (hname : p.name = none ∨ ∃ name, p.name = some name ∧ IsName name)
    (htype : Freshens text fresh) (hrest : Closing rest) (hrest' : Closing rest')
    (heq : freshen (tokens rest) = tokens rest') :
    freshen (tokens ((paramText p text).toList ++ rest)) =
      tokens ((paramText p fresh).toList ++ rest') := by
  rcases p with ⟨name, type, variadic⟩
  -- The part behind the name begins with the mark or with the type.
  have hmarked : freshen (tokens (((if variadic then "..." else "") ++ text).toList ++ rest)) =
      tokens (((if variadic then "..." else "") ++ fresh).toList ++ rest') ∧
        (tokens (((if variadic then "..." else "") ++ text).toList ++ rest)).head? ≠ some .dot := by
    simp only [String.toList_append, List.append_assoc]
    cases variadic with
    | true =>
        have htokens : ∀ more, tokens ((if true = true then "..." else "").toList ++ more) =
            .ellipsis :: tokens more := tokens_ellipsis
        rw [htokens, htokens, freshen_mark rfl, htype.freshened hrest hrest' heq]
        simp
    | false => exact ⟨htype.freshened hrest hrest' heq, htype.head? hrest hrest' heq⟩
  rcases hname with rfl | ⟨name, rfl, hname⟩
  · simpa only [paramText, String.empty_append] using hmarked.1
  · rw [tokens_paramText rest type variadic hname, tokens_paramText rest' type variadic hname,
      freshen_cons hmarked.2, hmarked.1]

variable {params : List (Param TypeExpr)} {f g : Package → Option String}

/-- The parameters of a list, in front of the parenthesis that closes it. -/
theorem freshen_params
    (hparams : ∀ p ∈ params, (p.name = none ∨ ∃ name, p.name = some name ∧ IsName name) ∧
      Freshens (p.type.written f).text (p.type.written g).text)
    (heq : freshen (tokens rest) = tokens rest') :
    freshen (tokens ((", ".intercalate (TypeExpr.textsOf f params)).toList ++ ')' :: rest)) =
      tokens ((", ".intercalate (TypeExpr.textsOf g params)).toList ++ ')' :: rest') := by
  have hclose : freshen (tokens (')' :: rest)) = tokens (')' :: rest') := by
    rw [tokens_closeParen, tokens_closeParen, freshen_mark rfl, heq]
  induction params with
  | nil => exact hclose
  | cons p ps ih =>
      rcases List.forall_mem_cons.mp hparams with ⟨⟨hname, htype⟩, hps⟩
      cases ps with
      | nil =>
          simp only [TypeExpr.textsOf, List.map_cons, List.map_nil, String.intercalate_singleton]
          exact freshen_param hname htype (.paren rest) (.paren rest') hclose
      | cons q qs =>
          have hmore := ih hps
          simp only [TypeExpr.textsOf, List.map_cons] at hmore ⊢
          simp only [String.intercalate_cons_cons, String.toList_append, List.append_assoc]
          -- What follows the first parameter begins with the comma that ends it.
          refine freshen_param hname htype (.comma _) (.comma _) ?_
          have hcomma : ∀ more, tokens (", ".toList ++ more) = .comma :: tokens more := fun more =>
            (tokens_comma _).trans (congrArg (Token.comma :: ·) (tokens_blank more))
          rw [hcomma, hcomma, freshen_mark rfl, hmore]

/-- The results of a function type, in front of anything that may follow it. -/
theorem freshen_results
    (hparams : ∀ p ∈ params, (p.name = none ∨ ∃ name, p.name = some name ∧ IsName name) ∧
      Freshens (p.type.written f).text (p.type.written g).text)
    (hrest : Closing rest) (hrest' : Closing rest') (heq : freshen (tokens rest) = tokens rest') :
    freshen (tokens ((resultsText params (TypeExpr.textsOf f params)).toList ++ rest)) =
      tokens ((resultsText params (TypeExpr.textsOf g params)).toList ++ rest') := by
  have hlist :
      freshen (tokens ((" (" ++ ", ".intercalate (TypeExpr.textsOf f params) ++ ")").toList ++
          rest)) =
        tokens ((" (" ++ ", ".intercalate (TypeExpr.textsOf g params) ++ ")").toList ++ rest') := by
    have htokens : ∀ (texts : String) (more : List Char),
        tokens ((" (" ++ texts ++ ")").toList ++ more) =
          .openParen :: tokens (texts.toList ++ ')' :: more) := by
      intro texts more
      simp only [String.toList_append, List.append_assoc]
      exact (tokens_blank _).trans (tokens_openParen _)
    rw [htokens, htokens, freshen_mark rfl, freshen_params hparams heq]
  -- A single result without a name is the one case that has no parentheses.
  rcases params with _ | ⟨⟨name, type, variadic⟩, _ | ⟨q, qs⟩⟩
  · exact heq
  · cases name with
    | none =>
        rcases List.forall_mem_singleton.mp hparams with ⟨hname, htype⟩
        have htokens : ∀ (text : String) (more : List Char),
            tokens ((" " ++ text).toList ++ more) = tokens (text.toList ++ more) := by
          intro text more
          rw [String.toList_append, List.append_assoc]
          exact tokens_blank _
        simp only [TypeExpr.textsOf, List.map_cons, List.map_nil, resultsText,
          String.intercalate_singleton, htokens]
        exact freshen_param hname htype hrest hrest' heq
    | some name => exact hlist
  · cases name with
    | none => exact hlist
    | some name => exact hlist

end Texts

/-! ## Whole types -/

namespace TypeExpr

variable {qualifier : Package → Option String} {n : TypeExpr}

/-- The text of a type that meets the conditions is legible once its qualifiers
    have been made into names. -/
theorem legible_freshQualifier (h : n.Everywhere (TellableIn qualifier)) :
    Legible (n.written (freshQualifier qualifier)) := by
  have hvalid : n.Valid := fun t ht => (h t ht).valid
  have hqualified : n.WellQualified (freshQualifier qualifier) := by
    refine (wellQualified_iff _ n).mpr fun package hpackage q hq => ?_
    rcases (mem_packages_iff n package).mp hpackage with ⟨name, hwithin⟩
    rcases Option.map_eq_some_iff.mp hq with ⟨old, hold, rfl⟩
    exact isName_freshName ((h _ hwithin).qualified package name rfl old hold)
  exact hvalid.wellMarked.legible
    ((spelled_written_iff hvalid).mpr ⟨fun t ht => (h t ht).named, hqualified⟩)

/-- The texts of parameters are those of their types with what is in front. -/
theorem paramTexts_written (params : List (Param TypeExpr)) :
    WrittenType.paramTexts (writtenParams qualifier params) = textsOf qualifier params := by
  rw [WrittenType.paramTexts_eq, writtenParams_eq, List.map_map]
  rfl

/-- A type begins in the text of a type that meets the conditions, so that only
    the tokens are left to look at. -/
theorem freshens_of (h : n.Everywhere (TellableIn qualifier))
    (hfreshened : ∀ ⦃rest rest'⦄, Closing rest → Closing rest' →
      freshen (tokens rest) = tokens rest' →
        freshen (tokens ((n.written qualifier).text.toList ++ rest)) =
          tokens ((n.written (freshQualifier qualifier)).text.toList ++ rest')) :
    Freshens (n.written qualifier).text (n.written (freshQualifier qualifier)).text :=
  ⟨hfreshened, fun _ hrest => ((legible_freshQualifier h).leads hrest).starts⟩

/-- The tokens of a type with its qualifiers made into names are the freshened
    tokens of the type, whatever follows both. -/
theorem freshens_written (h : n.Everywhere (TellableIn qualifier)) :
    Freshens (n.written qualifier).text (n.written (freshQualifier qualifier)).text := by
  refine freshens_of h ?_
  intro rest rest' hrest hrest' heq
  -- The induction is on the type, with what follows it left open.
  induction n using inductOn generalizing rest rest' with
  | predeclared name =>
      rcases (everywhere_predeclared.mp h).named with hname | rfl | rfl
      · exact @freshen_named _ _ none name hname (fun _ h => nomatch h) hrest hrest' heq
      · rw [written, written, tokens_emptyInterface, tokens_emptyInterface, freshen_cons (by simp),
          freshen_mark rfl, freshen_mark rfl, heq]
      · rw [written, written, tokens_emptyStruct, tokens_emptyStruct, freshen_cons (by simp),
          freshen_mark rfl, freshen_mark rfl, heq]
  | named package name =>
      have hhere := everywhere_named.mp h
      have hqualifier : package.bind (freshQualifier qualifier) =
          (package.bind qualifier).map freshName := by
        cases package <;> rfl
      rw [written, written, hqualifier]
      refine freshen_named hhere.named (fun q hq => ?_) hrest hrest' heq
      rcases Option.bind_eq_some_iff.mp hq with ⟨p, rfl, hq⟩
      exact hhere.qualified p name rfl q hq
  | pointer elem ih =>
      have helem := ih (everywhere_pointer.mp h).2 hrest hrest' heq
      rw [written, written, tokens_pointer, tokens_pointer, freshen_mark rfl, helem]
  | slice elem ih =>
      have helem := ih (everywhere_slice.mp h).2 hrest hrest' heq
      rw [written, written, tokens_slice, tokens_slice, freshen_mark rfl, freshen_mark rfl, helem]
  | array len elem ih =>
      have helem := ih (everywhere_array.mp h).2 hrest hrest' heq
      rw [written, written, tokens_array, tokens_array, freshen_mark rfl, freshen_mark rfl,
        freshen_mark rfl, helem]
  | channel dir elem ih =>
      have hpart := (everywhere_channel.mp h).2
      have helem := freshens_of hpart (ih hpart)
      -- Whether parentheses are needed does not depend on the qualifiers.
      rw [written, written, WrittenType.text, WrittenType.text, needsParens_written,
        needsParens_written]
      by_cases hparens : needsParens dir elem = true
      · rw [if_pos hparens, if_pos hparens]
        exact freshen_channel helem.parens dir hrest hrest' heq
      · rw [if_neg hparens, if_neg hparens]
        exact freshen_channel helem dir hrest hrest' heq
  | map key value ihKey ihValue =>
      rcases everywhere_map.mp h with ⟨-, hkey, hvalue⟩
      have hafter : freshen (tokens (']' :: ((value.written qualifier).text.toList ++ rest))) =
          tokens (']' :: ((value.written (freshQualifier qualifier)).text.toList ++ rest')) := by
        rw [tokens_closeBracket, tokens_closeBracket, freshen_mark rfl,
          ihValue hvalue hrest hrest' heq]
      rw [written, written, tokens_map, tokens_map, freshen_cons (by simp), freshen_mark rfl,
        ihKey hkey (.bracket _) (.bracket _) hafter]
  | func inputs outputs ihIn ihOut =>
      rcases everywhere_func.mp h with ⟨hhere, hin, hout⟩
      rcases hhere.named with ⟨halikeIn, halikeOut⟩
      -- The results come last, so they are what follows the parameters.
      have hresults := freshen_results
        (fun p hp => ⟨halikeOut.name hp, freshens_of (hout p hp) (ihOut p hp (hout p hp))⟩)
        hrest hrest' heq
      have hparams := freshen_params
        (fun p hp => ⟨halikeIn.name hp, freshens_of (hin p hp) (ihIn p hp (hin p hp))⟩) hresults
      rw [written, written, tokens_func, tokens_func, freshen_cons (by simp), freshen_mark rfl]
      simp only [paramTexts_written, resultsText_written, hparams]

/-- The qualifier that a name was made of. -/
theorem freshQualifier_bind (package : Package) :
    qualifier package = (freshQualifier qualifier package).bind fun fresh =>
      some (String.ofList fresh.toList.tail) := by
  unfold freshQualifier
  cases qualifier package with
  | none => rfl
  | some q => simp [freshName, String.toList_append]

/-- Types with one text have one written form. -/
theorem written_eq_of_text {a b : TypeExpr} (ha : a.Everywhere (TellableIn qualifier))
    (hb : b.Everywhere (TellableIn qualifier))
    (h : (a.written qualifier).text = (b.written qualifier).text) :
    a.written qualifier = b.written qualifier := by
  -- The texts have the same tokens, and have them still when the qualifiers are
  -- names; then the tokens can be read.
  have htokens : tokens ((a.written (freshQualifier qualifier)).text.toList ++ []) =
      tokens ((b.written (freshQualifier qualifier)).text.toList ++ []) := by
    have hnil : freshen (tokens []) = tokens [] := by
      rw [tokens, freshen]
    rw [← (freshens_written ha).freshened .nil .nil hnil, h,
      (freshens_written hb).freshened .nil .nil hnil]
  have hread : ∀ {w : WrittenType} {bound : Nat}, Legible w → w.text.length < bound →
      parseType bound (tokens (w.text.toList ++ [])) = some (w, tokens []) :=
    fun hw hbound => parseType_text hw hbound .nil
  have hreadA := hread (legible_freshQualifier ha)
    (Nat.lt_succ_of_le (Nat.le_max_left _ (b.written (freshQualifier qualifier)).text.length))
  have hreadB := hread (legible_freshQualifier hb)
    (Nat.lt_succ_of_le (Nat.le_max_right (a.written (freshQualifier qualifier)).text.length _))
  rw [htokens, hreadB] at hreadA
  have hfresh := (Prod.mk.inj (Option.some.inj hreadA)).1
  exact written_eq_of (fun p _ => freshQualifier_bind p) (fun p _ => freshQualifier_bind p)
    hfresh.symm

end TypeExpr

end Go

end FunctionalOptions
