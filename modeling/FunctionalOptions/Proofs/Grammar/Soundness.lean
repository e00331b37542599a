import FunctionalOptions.Proofs.Grammar.RoundTrip

/-!
# What Reading Can Give

A type that the grammar reads is one that could have been written: every name
in it is an identifier and no keyword, and the parameters of every function
have names alike. This limits what can be read back from a text, however the
text came about, and so tells which types no text is able to carry.

Names come from the tokens, so the argument starts at the lexical rules and
follows the tokens through the readers. A reader is sound when it makes no name
of its own and leaves clean tokens over. At one place a type turns into a name:
in a list of parameters that share types. The names of the two empty literals
would be none, which is why that production asks for an identifier.

## Main definitions

* `Spelled`: A written type all of whose names are names of the language.
* `Clean`: Every name among some tokens is one.
* `Sound`: A reader that gives spelled types for clean tokens.

## Theorems

* `clean_tokens`: The tokens of every text are clean.
* `sound_parseType`: Types are read soundly, however deep they nest.
* `spelled_of_ofText?`: A type that is read from a text is spelled.
-/

namespace FunctionalOptions

namespace Go

/-- A written type all of whose names are names of the language, and whose
    functions have parameters that are named alike. -/
inductive Spelled : WrittenType → Prop where
  | bare {name : String} : IsName name → Spelled (.named none name)
  | qualified {qualifier name : String} :
    IsName qualifier → IsName name → Spelled (.named (some qualifier) name)
  | emptyInterface : Spelled (.named none "interface\x7b\x7d")
  | emptyStruct : Spelled (.named none "struct\x7b\x7d")
  | pointer {elem : WrittenType} : Spelled elem → Spelled (.pointer elem)
  | slice {elem : WrittenType} : Spelled elem → Spelled (.slice elem)
  | array {len : Nat} {elem : WrittenType} : Spelled elem → Spelled (.array len elem)
  | channel {dir : Direction} {elem : WrittenType} : Spelled elem → Spelled (.channel dir elem)
  | map {key value : WrittenType} : Spelled key → Spelled value → Spelled (.map key value)
  | func {inputs outputs : List (Param WrittenType)} :
    NamedAlike inputs → NamedAlike outputs → (∀ p ∈ inputs, Spelled p.type) →
    (∀ p ∈ outputs, Spelled p.type) → Spelled (.func inputs outputs)

/-- A bare identifier that is spelled is a name. -/
theorem Spelled.isName {name : String} (h : Spelled (.named none name))
    (hid : isIdentifier name = true) : IsName name := by
  cases h with
  | bare hname => exact hname
  | emptyInterface => exact absurd hid (by decide +kernel)
  | emptyStruct => exact absurd hid (by decide +kernel)

/-! ## Tokens -/

/-- Every name among the tokens is one. -/
def Clean (tokens : List Token) : Prop :=
  ∀ text, Token.name text ∈ tokens → IsName text

namespace Clean

variable {token : Token} {more : List Token}

theorem nil : Clean [] :=
  fun _ h => nomatch h

theorem cons (htoken : ∀ text, token = .name text → IsName text) (hmore : Clean more) :
    Clean (token :: more) := by
  intro text h
  rcases List.mem_cons.mp h with h | h
  · exact htoken text h.symm
  · exact hmore text h

theorem tail (h : Clean (token :: more)) : Clean more :=
  fun text htext => h text (List.mem_cons_of_mem _ htext)

theorem head {text : String} (h : Clean (.name text :: more)) : IsName text :=
  h text List.mem_cons_self

end Clean

/-- A word that is read as a name is one. -/
theorem Token.isName_ofWord {word : List Char} {text : String} (h : ofWord word = .name text) :
    IsName text := by
  simp only [ofWord] at h
  by_cases hkeyword : isKeyword (String.ofList word) = true
  · -- No keyword has the token of a name.
    rw [if_pos hkeyword, ofKeyword] at h
    repeat' split at h
    all_goals cases h
  · rw [if_neg hkeyword] at h
    by_cases hid : isIdentifier (String.ofList word) = true
    · rw [if_pos hid] at h
      obtain rfl := Token.name.inj h
      exact ⟨hid, Bool.eq_false_iff.mpr hkeyword⟩
    · rw [if_neg hid] at h
      split at h <;> cases h

/-- A mark is not read as a name. -/
theorem Token.scanMark_ne_name (c : Char) (rest : List Char) (text : String) :
    (scanMark c rest).1 ≠ .name text := by
  unfold scanMark
  split <;> exact Token.noConfusion

/-- The tokens of every text are clean. -/
theorem clean_tokens (text : List Char) : Clean (tokens text) := by
  fun_induction tokens text with
  | case1 => exact .nil
  | case2 c rest hpart ih => exact .cons (fun _ h => Token.isName_ofWord h) ih
  | case3 c rest hpart hblank ih => exact ih
  | case4 c rest hpart hblank ih =>
      exact .cons (fun _ h => absurd h (Token.scanMark_ne_name c rest _)) ih

/-! ## Readers -/

/-- A reader gives spelled types for clean tokens, and leaves clean tokens
    over. -/
def Sound (read : TypeReader) : Prop :=
  ∀ ⦃tokens type rest⦄, Clean tokens → read tokens = some (type, rest) → Spelled type ∧ Clean rest

/-- A parameter with a spelled type and, if it has one, a name of the
    language. -/
def SpelledParam (p : Param WrittenType) : Prop :=
  (∀ name, p.name = some name → IsName name) ∧ Spelled p.type

variable {read : TypeReader} {tokens rest : List Token}

/-- A type around the one that a sound reader gives. -/
theorem Sound.around (hread : Sound read) {build : WrittenType → WrittenType}
    (hbuild : ∀ {elem}, Spelled elem → Spelled (build elem)) (hclean : Clean tokens)
    {type : WrittenType}
    (h : (do let (elem, rest) ← read tokens; return (build elem, rest)) = some (type, rest)) :
    Spelled type ∧ Clean rest := by
  rcases Option.bind_eq_some_iff.mp h with ⟨⟨elem, after⟩, helem, hend⟩
  rcases hread hclean helem with ⟨hspelled, hafter⟩
  cases hend
  exact ⟨hbuild hspelled, hafter⟩

theorem clean_expect {token : Token} (hclean : Clean tokens) (h : expect token tokens = some rest) :
    Clean rest := by
  cases tokens with
  | nil => cases h
  | cons next more =>
      rw [expect] at h
      split at h
      · cases h
        exact hclean.tail
      · cases h

theorem clean_parseMark (hclean : Clean tokens) : Clean (parseMark tokens).2 := by
  unfold parseMark
  split
  · exact hclean.tail
  · exact hclean

theorem clean_parseDirection (hclean : Clean tokens) : Clean (parseDirection tokens).2 := by
  unfold parseDirection
  split
  · exact hclean.tail
  · exact hclean

theorem sound_parseName {first : String} (hfirst : IsName first) : Sound (parseName first) := by
  intro tokens type rest hclean h
  unfold parseName at h
  split at h
  · cases h
    exact ⟨.qualified hfirst hclean.tail.head, hclean.tail.tail⟩
  · exact nomatch h
  · cases h
    exact ⟨.bare hfirst, hclean⟩

variable {p : Param WrittenType}

theorem sound_parseUnnamed (hread : Sound read) (hclean : Clean tokens)
    (h : parseUnnamed read tokens = some (p, rest)) : SpelledParam p ∧ Clean rest := by
  rcases Option.bind_eq_some_iff.mp h with ⟨⟨type, after⟩, htype, hp⟩
  rcases hread (clean_parseMark hclean) htype with ⟨hspelled, hafter⟩
  cases hp
  exact ⟨⟨(fun _ hname => nomatch hname), hspelled⟩, hafter⟩

theorem sound_parseEntry (hread : Sound read) (hclean : Clean tokens)
    (h : parseEntry read tokens = some (p, rest)) : SpelledParam p ∧ Clean rest := by
  unfold parseEntry at h
  split at h
  · next name more =>
    split at h
    · -- A type comes behind the word, which is the name of the parameter then.
      rcases Option.bind_eq_some_iff.mp h with ⟨⟨q, after⟩, hq, hp⟩
      rcases sound_parseUnnamed hread hclean.tail hq with ⟨⟨-, hspelled⟩, hafter⟩
      cases hp
      refine ⟨⟨fun text htext => ?_, hspelled⟩, hafter⟩
      obtain rfl := Option.some.inj htext
      exact hclean.head
    · exact sound_parseUnnamed hread hclean h
  · exact sound_parseUnnamed hread hclean h

variable {params : List (Param WrittenType)}

theorem sound_parseEntries (hread : Sound read) {bound : Nat} (hclean : Clean tokens)
    (h : parseEntries read bound tokens = some (params, rest)) :
    (∀ p ∈ params, SpelledParam p) ∧ Clean rest := by
  induction bound generalizing tokens rest params with
  | zero => exact nomatch h
  | succ bound ih =>
      unfold parseEntries at h
      split at h
      · cases h
        refine ⟨fun p hp => absurd hp List.not_mem_nil, ?_⟩
        cases tokens with
        | nil => exact .nil
        | cons _ _ => exact hclean.tail
      · rcases Option.bind_eq_some_iff.mp h with ⟨⟨p, after⟩, hp, hmore⟩
        rcases sound_parseEntry hread hclean hp with ⟨hspelled, hafter⟩
        dsimp only at hmore
        split at hmore
        · cases hmore
          exact ⟨List.forall_mem_singleton.mpr hspelled, hafter.tail⟩
        · rcases Option.bind_eq_some_iff.mp hmore with ⟨⟨ps, last⟩, hps, hend⟩
          rcases ih hafter.tail hps with ⟨hrest, hlast⟩
          cases hend
          exact ⟨List.forall_mem_cons.mpr ⟨hspelled, hrest⟩, hlast⟩
        · exact nomatch hmore

/-- In a list that shares types every parameter has a name. -/
theorem sound_shareTypes {entries : List (Param WrittenType)}
    (hentries : ∀ p ∈ entries, SpelledParam p) (h : shareTypes entries = some params) :
    ∀ p ∈ params, (∃ name, p.name = some name ∧ IsName name) ∧ Spelled p.type := by
  fun_induction shareTypes entries generalizing params with
  | case1 =>
      cases h
      exact fun p hp => absurd hp List.not_mem_nil
  | case2 name type variadic rest ih =>
      rcases Option.bind_eq_some_iff.mp h with ⟨ps, hps, hend⟩
      rcases List.forall_mem_cons.mp hentries with ⟨⟨hname, hspelled⟩, hrest⟩
      cases hend
      exact List.forall_mem_cons.mpr ⟨⟨⟨name, rfl, hname name rfl⟩, hspelled⟩, ih hrest hps⟩
  | case3 type variadic rest ih =>
      rcases Option.bind_eq_some_iff.mp h with ⟨ps, hps, hend⟩
      rcases List.forall_mem_cons.mp hentries with ⟨⟨-, hspelled⟩, hrest⟩
      have hps := ih hrest hps
      -- The bare name is that of a type until the list is resolved.
      split at hend
      · next name following _ _ =>
        split at hend
        · next hid =>
          cases hend
          exact List.forall_mem_cons.mpr
            ⟨⟨⟨name, rfl, hspelled.isName hid⟩, (hps following List.mem_cons_self).2⟩, hps⟩
        · cases hend
      · cases hend

theorem sound_parseParams (hread : Sound read) {bound : Nat} (hclean : Clean tokens)
    (h : parseParams read bound tokens = some (params, rest)) :
    (NamedAlike params ∧ ∀ p ∈ params, Spelled p.type) ∧ Clean rest := by
  rcases Option.bind_eq_some_iff.mp h with ⟨⟨entries, after⟩, hentries, hmore⟩
  rcases Option.bind_eq_some_iff.mp hmore with ⟨resolved, hresolved, hend⟩
  rcases sound_parseEntries hread hclean hentries with ⟨hspelled, hafter⟩
  cases hend
  refine ⟨?_, hafter⟩
  unfold resolveEntries at hresolved
  split at hresolved
  · next hnone =>
    -- No entry has a name, so all of them are types.
    obtain rfl := Option.some.inj hresolved
    have hunnamed : ∀ p ∈ entries, p.name = none := fun p hp =>
      Option.isNone_iff_eq_none.mp (List.all_eq_true.mp hnone p hp)
    exact ⟨Or.inl hunnamed, fun p hp => (hspelled p hp).2⟩
  · have hnamed := sound_shareTypes hspelled hresolved
    exact ⟨Or.inr fun p hp => (hnamed p hp).1, fun p hp => (hnamed p hp).2⟩

theorem sound_parseResults (hread : Sound read) {bound : Nat} (hclean : Clean tokens)
    (h : parseResults read bound tokens = some (params, rest)) :
    (NamedAlike params ∧ ∀ p ∈ params, Spelled p.type) ∧ Clean rest := by
  unfold parseResults at h
  split at h
  · cases tokens with
    | nil => exact sound_parseParams hread .nil h
    | cons _ _ => exact sound_parseParams hread hclean.tail h
  · split at h
    · -- Without parentheses there is a single result, and it has no name.
      rcases Option.bind_eq_some_iff.mp h with ⟨⟨type, after⟩, htype, hend⟩
      rcases hread hclean htype with ⟨hspelled, hafter⟩
      cases hend
      exact ⟨⟨Or.inl (List.forall_mem_singleton.mpr rfl), List.forall_mem_singleton.mpr hspelled⟩,
        hafter⟩
    · cases h
      exact ⟨⟨Or.inl fun p hp => absurd hp List.not_mem_nil,
        fun p hp => absurd hp List.not_mem_nil⟩, hclean⟩

/-! ## Whole types -/

/-- Types are read soundly, however deep they nest. -/
theorem sound_parseType (bound : Nat) : Sound (parseType bound) := by
  induction bound with
  | zero => exact fun _ _ _ _ h => nomatch h
  | succ bound ih =>
      intro tokens type rest hclean h
      -- One case for each production, in the order of the parser.
      unfold parseType at h
      split at h
      · exact sound_parseName hclean.head hclean.tail h
      · cases h
        exact ⟨.emptyInterface, hclean.tail.tail.tail⟩
      · cases h
        exact ⟨.emptyStruct, hclean.tail.tail.tail⟩
      · rcases Option.bind_eq_some_iff.mp h with ⟨⟨elem, after⟩, helem, hmore⟩
        rcases Option.bind_eq_some_iff.mp hmore with ⟨last, hlast, hend⟩
        rcases ih hclean.tail helem with ⟨hspelled, hafter⟩
        cases hend
        exact ⟨hspelled, clean_expect hafter hlast⟩
      · exact ih.around .pointer hclean.tail h
      · exact ih.around .slice hclean.tail.tail h
      · exact ih.around .array hclean.tail.tail.tail h
      · exact ih.around .channel hclean.tail.tail h
      · exact ih.around .channel (clean_parseDirection hclean.tail) h
      · rcases Option.bind_eq_some_iff.mp h with ⟨⟨key, afterKey⟩, hkey, hmore⟩
        rcases Option.bind_eq_some_iff.mp hmore with ⟨last, hlast, hmore⟩
        rcases Option.bind_eq_some_iff.mp hmore with ⟨⟨value, after⟩, hvalue, hend⟩
        rcases ih hclean.tail.tail hkey with ⟨hspelledKey, hcleanKey⟩
        rcases ih (clean_expect hcleanKey hlast) hvalue with ⟨hspelledValue, hafter⟩
        cases hend
        exact ⟨.map hspelledKey hspelledValue, hafter⟩
      · rcases Option.bind_eq_some_iff.mp h with ⟨⟨inputs, afterIn⟩, hin, hmore⟩
        rcases Option.bind_eq_some_iff.mp hmore with ⟨⟨outputs, after⟩, hout, hend⟩
        rcases sound_parseParams ih hclean.tail.tail hin with ⟨⟨halikeIn, hinputs⟩, hcleanIn⟩
        rcases sound_parseResults ih hcleanIn hout with ⟨⟨halikeOut, houtputs⟩, hafter⟩
        cases hend
        exact ⟨.func halikeIn halikeOut hinputs houtputs, hafter⟩
      · exact nomatch h

/-- A type that is read from a text is spelled. -/
theorem spelled_of_ofText? {text : String} {type : WrittenType}
    (h : WrittenType.ofText? text = some type) : Spelled type := by
  unfold WrittenType.ofText? at h
  split at h
  · next hread =>
    cases h
    exact (sound_parseType _ (clean_tokens _) hread).1
  · exact nomatch h

end Go

end FunctionalOptions
