import FunctionalOptions.Json.Text
import FunctionalOptions.Proofs.Json.Tree

/-!
# Reading Written Trees

The tree of the text of a tree is the tree. The text spells the tokens of the tree, and the
texts that do have the tree. The statement that goes through the induction is about a text
that goes on, since that is where the items of an array and the members of an object stand.

How the text goes on matters for numbers only, whose literals have no end of their own.

## Main definitions

* `Written`: A tree that writing leads to: nothing in it is broken, and its
  numbers are natural and of at most 64 bits.
* `SpelledByText`: The text of a tree spells its tokens, whatever follows.

## Theorems

* `spells_items`, `spells_members`: What a container holds is spelled up to its end.
* `Written.spelledByText`: The text of a written tree spells its tokens.
* `ofText_text`: The tree of the text of a tree is the tree.
* `text_injective`: Trees with the same text are the same.
-/

namespace FunctionalOptions

namespace Json

/-- A member as it stands in a tree. -/
def entry (member : String × Json) : Option String × Json :=
  (some member.1, member.2)

theorem obj_eq (members : List (String × Json)) :
    obj members = .object (members.map entry) none :=
  rfl

theorem obj_injective : Function.Injective obj := by
  intro members other h
  have hentry : Function.Injective entry := by
    rintro ⟨name, value⟩ ⟨otherName, otherValue⟩ hentries
    cases hentries
    rfl
  exact hentry.list_map (Json.object.inj h).1

theorem arr_injective : Function.Injective arr := by
  intro items other h
  exact (Json.array.inj h).1

/-- A tree that writing leads to. -/
inductive Written : Json → Prop where
  | null : Written .null
  | bool (value : Bool) : Written (.bool value)
  | ofNat {n : Nat} : n < wordSize → Written (.ofNat n)
  | str (text : String) : Written (.str text)
  | arr {items : List Json} : (∀ item ∈ items, Written item) → Written (.arr items)
  | obj {members : List (String × Json)} :
    (∀ member ∈ members, Written member.2) → Written (.obj members)

/-- Nothing that is written is at fault. -/
theorem Written.intact {tree : Json} (h : Written tree) : Intact tree := by
  induction h with
  | null => exact .null
  | bool value => exact .bool value
  | ofNat => exact .number _
  | str text => exact .string _
  | arr _ ih => exact .array ih
  | obj _ ih => exact .object (List.forall_mem_map.mpr ih)

/-! ## Tokens -/

theorem endsNumber_cons {c : Char} (h : c.isDigit = false ∧ c ≠ '.' ∧ c ≠ 'e' ∧ c ≠ 'E')
    (rest : List Char) : EndsNumber (c :: rest) := by
  intro d hd
  cases hd
  exact h

/-- The text of the tree spells its tokens, also where more follows. -/
def SpelledByText (tree : Json) : Prop :=
  ∀ (left : List Token) (rest : List Char), EndsNumber rest → Spells left rest →
    Spells (tree.tokenList ++ left) (tree.text.toList ++ rest)

section Spelled

variable {left : List Token} {rest : List Char}

/-- The literal of a number spells the number, where it does not go on. -/
theorem spells_ofNat (n : Nat) (hend : EndsNumber rest) (hrest : Spells left rest) :
    Spells (.number (toString n) :: left) ((toString n).toList ++ rest) := by
  have hscan := @scanNumber_ofNat n [] fun _ hc => nomatch hc
  -- The lexeme is the literal alone, with nothing behind it.
  rw [List.append_nil] at hscan
  have hlexeme := Lexeme.number hscan
  rw [String.ofList_toList] at hlexeme
  exact .token hlexeme (fun _ _ => hend) hrest

/-- The literal of a text spells the text. -/
theorem spells_str (text : String) (hrest : Spells left rest) :
    Spells (.string (some text) :: left) ((writeQuoted text).toList ++ rest) := by
  have hlexeme := Lexeme.string (scanQuoted_text text.toList [])
  rw [join?_scalars, Option.map_some, String.ofList_toList] at hlexeme
  rw [writeQuoted, String.toList_ofList]
  refine .token hlexeme ?_ hrest
  rintro _ ⟨⟩

/-- The items of an array are spelled up to its end. -/
theorem spells_items {first : Json} {more : List Json}
    (h : ∀ item ∈ first :: more, SpelledByText item) (hrest : Spells left rest) :
    Spells (itemTokens (first :: more) ++ .closeArray :: left)
      ((itemsText (first :: more)).toList ++ ']' :: rest) := by
  induction more generalizing first with
  | nil =>
      rw [itemTokens, itemsText]
      exact h first List.mem_cons_self _ _ (endsNumber_cons (by decide) rest)
        (.word rfl rfl hrest)
  | cons second more ih =>
      -- Behind each item but the last stands a comma, at which a number ends.
      have htext : (itemsText (first :: second :: more)).toList ++ ']' :: rest =
          first.text.toList ++ ',' :: ((itemsText (second :: more)).toList ++ ']' :: rest) := by
        rw [itemsText, String.toList_append, String.toList_append, List.append_assoc,
          List.append_assoc]
        · rfl
        · exact List.cons_ne_nil second more
      rcases List.forall_mem_cons.mp h with ⟨hfirst, hmore⟩
      rw [htext, itemTokens_cons first (List.cons_ne_nil second more), List.append_assoc]
      exact hfirst _ _ (endsNumber_cons (by decide) _) (.word rfl rfl (ih hmore))

/-- The members of an object are spelled up to its end. -/
theorem spells_members {first : String × Json} {more : List (String × Json)}
    (h : ∀ member ∈ first :: more, SpelledByText member.2) (hrest : Spells left rest) :
    Spells (memberTokens ((first :: more).map entry) ++ .closeObject :: left)
      ((membersText ((first :: more).map entry)).toList ++ '\x7d' :: rest) := by
  induction more generalizing first with
  | nil =>
      have htext : (membersText [entry first]).toList ++ '\x7d' :: rest =
          (writeQuoted first.1).toList ++ ':' :: (first.2.text.toList ++ '\x7d' :: rest) := by
        rw [entry, membersText, String.toList_append, String.toList_append, List.append_assoc,
          List.append_assoc]
        rfl
      rw [List.map_cons, List.map_nil, htext]
      refine spells_str first.1 (.word rfl rfl ?_)
      exact h first List.mem_cons_self _ _ (endsNumber_cons (by decide) rest)
        (.word rfl rfl hrest)
  | cons second more ih =>
      -- As for items, but the name stands in front of each value.
      have htext : (membersText (entry first :: (second :: more).map entry)).toList ++
            '\x7d' :: rest =
          (writeQuoted first.1).toList ++ ':' :: (first.2.text.toList ++
            ',' :: ((membersText ((second :: more).map entry)).toList ++ '\x7d' :: rest)) := by
        rw [entry, List.map_cons, membersText]
        · simp only [String.toList_append, List.append_assoc]
          rfl
        · exact List.cons_ne_nil _ _
      rcases List.forall_mem_cons.mp h with ⟨hfirst, hmore⟩
      rw [List.map_cons, htext, @memberTokens_cons (entry first) ((second :: more).map entry)
        (List.cons_ne_nil _ _), List.cons_append, List.cons_append, List.append_assoc]
      refine spells_str first.1 (.word rfl rfl ?_)
      exact hfirst _ _ (endsNumber_cons (by decide) _) (.word rfl rfl (ih hmore))

end Spelled

theorem SpelledByText.arr {items : List Json} (h : ∀ item ∈ items, SpelledByText item) :
    SpelledByText (.arr items) := by
  intro left rest _ hrest
  have htext : (Json.arr items).text.toList ++ rest =
      ['['] ++ ((itemsText items).toList ++ ']' :: rest) := by
    rw [Json.arr, text, String.toList_append, String.toList_append, List.append_assoc,
      List.append_assoc]
    rfl
  rw [htext, Json.arr, tokenList, List.cons_append, List.append_assoc, List.singleton_append]
  refine .word rfl rfl ?_
  cases items with
  | nil => exact .word rfl rfl hrest
  | cons first more => exact spells_items h hrest

theorem SpelledByText.obj {members : List (String × Json)}
    (h : ∀ member ∈ members, SpelledByText member.2) : SpelledByText (.obj members) := by
  intro left rest _ hrest
  have htext : (Json.obj members).text.toList ++ rest =
      ['\x7b'] ++ ((membersText (members.map entry)).toList ++ '\x7d' :: rest) := by
    rw [obj_eq, text, String.toList_append, String.toList_append, List.append_assoc,
      List.append_assoc]
    rfl
  rw [htext, obj_eq, tokenList, List.cons_append, List.append_assoc, List.singleton_append]
  refine .word rfl rfl ?_
  -- An empty object is closed at once.
  cases members with
  | nil => exact .word rfl rfl hrest
  | cons first more => exact spells_members h hrest

/-- The text of a written tree spells its tokens. -/
theorem Written.spelledByText {tree : Json} (h : Written tree) : SpelledByText tree := by
  induction h with
  | null => exact fun _ _ _ hrest => .word rfl rfl hrest
  | bool value =>
      cases value with
      | true => exact fun _ _ _ hrest => .word rfl rfl hrest
      | false => exact fun _ _ _ hrest => .word rfl rfl hrest
  | ofNat => exact fun _ _ => spells_ofNat _
  | str text => exact fun _ _ _ => spells_str text
  | arr _ ih => exact .arr ih
  | obj _ ih => exact .obj ih

theorem Written.spells {tree : Json} (h : Written tree) :
    Spells tree.tokenList tree.text.toList := by
  -- Nothing follows.
  have hspells := h.spelledByText [] [] (fun _ hc => nomatch hc) .nil
  rwa [List.append_nil, List.append_nil] at hspells

/-- The tree of the text of a tree is the tree. -/
theorem ofText_text {tree : Json} (h : Written tree) : ofText tree.text = (tree, []) :=
  (ofText_eq_iff.mpr ⟨h.intact, h.spells⟩).1

/-- Trees with the same text are the same. -/
theorem text_injective {tree other : Json} (htree : Written tree) (hother : Written other)
    (h : tree.text = other.text) : tree = other := by
  -- Both are what the one text is read as.
  have hread := congrArg (fun text => (ofText text).1) h
  simpa only [ofText_text htree, ofText_text hother] using hread

end Json

end FunctionalOptions
