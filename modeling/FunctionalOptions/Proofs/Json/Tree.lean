import FunctionalOptions.Json.Tree
import FunctionalOptions.Proofs.Json.Spelling
import Mathlib.Data.List.Basic

/-!
# Trees and Their Tokens

A tree without a fault in it has a list of tokens, and the list grows into the tree again. The
statement that goes through the induction quantifies over the stack of open containers and over
the tokens that follow: the tokens of a tree settle it in the innermost container, and the reading
goes on behind it.

The other way round, a tree that is not stopped has no fault anywhere in it, since a stop closes
everything that is open around it. So the tokens that it has grown from are its own, with those
in front of them that are left over. One container after the other gives back what it was
gathered from, and the recursion is on the number of tokens.

Together the two say which texts have a given tree. They are the texts that spell its tokens.

## Main definitions

* `Intact`: A tree without any fault of a text in it.
* `tokenList`: The tokens of a tree.
* `Settles`: The tokens of a tree settle it where a value may come next.
* `Stopped`: A tree that ends at a stop.

## Theorems

* `Intact.settles`, `Intact.grow_tokenList`: The tokens of a tree grow into it.
* `exists_tokenList_of_grow`: A tree that is not stopped has grown from its tokens.
* `ofText_eq_iff`: The texts of a tree are those that spell its tokens.
-/

namespace FunctionalOptions

namespace Json

/-- A tree without any fault of a text in it. -/
inductive Intact : Json → Prop where
  | null : Intact .null
  | bool (value : Bool) : Intact (.bool value)
  | number (literal : String) : Intact (.number literal)
  | string (text : Option String) : Intact (.string text)
  | array {items : List Json} : (∀ item ∈ items, Intact item) → Intact (.array items none)
  | object {members : List (Option String × Json)} :
    (∀ member ∈ members, Intact member.2) → Intact (.object members none)

mutual

/-- The tokens of a tree. -/
def tokenList : Json → List Token
  | .null => [.null]
  | .bool value => [.bool value]
  | .number literal => [.number literal]
  | .string text => [.string text]
  | .array items _ => .openArray :: (itemTokens items ++ [.closeArray])
  | .object members _ => .openObject :: (memberTokens members ++ [.closeObject])
  | .broken _ => []

/-- The tokens of the items of an array, separated by commas. -/
def itemTokens : List Json → List Token
  | [] => []
  | [item] => item.tokenList
  | item :: rest => item.tokenList ++ .comma :: itemTokens rest

/-- The tokens of the members of an object, separated by commas. -/
def memberTokens : List (Option String × Json) → List Token
  | [] => []
  | [(name, value)] => .string name :: .colon :: value.tokenList
  | (name, value) :: rest =>
    .string name :: .colon :: (value.tokenList ++ .comma :: memberTokens rest)

end

theorem itemTokens_cons (item : Json) {rest : List Json} (h : rest ≠ []) :
    itemTokens (item :: rest) = item.tokenList ++ .comma :: itemTokens rest := by
  cases rest with
  | nil => exact absurd rfl h
  | cons second rest => rw [itemTokens]; exact List.cons_ne_nil _ _

theorem memberTokens_cons (member : Option String × Json)
    {rest : List (Option String × Json)} (h : rest ≠ []) :
    memberTokens (member :: rest) =
      .string member.1 :: .colon :: (member.2.tokenList ++ .comma :: memberTokens rest) := by
  cases rest with
  | nil => exact absurd rfl h
  | cons second rest => rw [memberTokens]; exact List.cons_ne_nil _ _

/-! ## The tokens of a tree grow into it -/

/-- What reading comes to after a step, with the tokens left. -/
def Step.run : Step → List Token → Json × List Token
  | .done tree, left => (tree, left)
  | .next expecting around, left => grow expecting around left

theorem grow_cons (expecting : Expectation) (around : List Open) (token : Token)
    (left : List Token) :
    grow expecting around (token :: left) = (step expecting around token).run left := by
  rw [grow]
  cases step expecting around token <;> rfl

/-- A value may come next. -/
def Expectation.AdmitsValue (expecting : Expectation) : Prop :=
  expecting = .value ∨ expecting = .valueOrEnd

/-- Where a value may come next, only the end of an array is not taken for
    one. -/
theorem step_admitsValue {expecting : Expectation} (h : expecting.AdmitsValue)
    (around : List Open) {token : Token} (htoken : token ≠ .closeArray) :
    step expecting around token = stepValue around token := by
  rcases h with rfl | rfl
  · rfl
  · exact if_neg htoken

/-- The tokens of the tree settle the tree where a value may come next. -/
def Settles (tree : Json) : Prop :=
  ∀ (expecting : Expectation) (around : List Open) (left : List Token), expecting.AdmitsValue →
    grow expecting around (tree.tokenList ++ left) = (settle tree around).run left

/-- A tree settles when it is the tree of one token. -/
theorem Settles.ofToken {tree : Json} {token : Token} (htoken : token ≠ .closeArray)
    (hstep : ∀ around, stepValue around token = settle tree around)
    (htokens : tree.tokenList = [token]) : Settles tree := by
  intro expecting around left hexpecting
  rw [htokens, List.singleton_append, grow_cons, step_admitsValue hexpecting around htoken, hstep]

section Containers

variable {expecting : Expectation} {around : List Open}

/-- What is gathered last comes before what follows. -/
theorem reverse_append_cons {α : Type} (gathered : List α) (next : α) (after : List α) :
    gathered.reverse ++ next :: after = (next :: gathered).reverse ++ after := by
  rw [List.reverse_cons, List.append_assoc, List.singleton_append]

/-- Reading goes on behind a value that is an item of an array. -/
theorem Settles.item {tree : Json} (h : Settles tree) (hexpecting : expecting.AdmitsValue)
    (gathered : List Json) (left : List Token) :
    grow expecting (.array gathered :: around) (tree.tokenList ++ left) =
      grow .commaOrEnd (.array (tree :: gathered) :: around) left := by
  rw [h expecting _ left hexpecting]
  rfl

/-- The items of an array are gathered up to its end. -/
theorem grow_items {first : Json} {more : List Json}
    (h : ∀ item ∈ first :: more, Settles item) (hexpecting : expecting.AdmitsValue)
    (gathered : List Json) (left : List Token) :
    grow expecting (.array gathered :: around)
        (itemTokens (first :: more) ++ .closeArray :: left) =
      (settle (.array (gathered.reverse ++ first :: more) none) around).run left := by
  rw [reverse_append_cons]
  have hfirst : Settles first := h first List.mem_cons_self
  -- Each item changes the stack, and after the first one a value has to come.
  induction more generalizing first expecting gathered with
  | nil =>
      rw [itemTokens, hfirst.item hexpecting gathered, grow_cons, List.append_nil]
      rfl
  | cons second more ih =>
      have hrest := (List.forall_mem_cons.mp h).2
      rw [itemTokens_cons first (List.cons_ne_nil second more), List.append_assoc,
        hfirst.item hexpecting gathered, List.cons_append, grow_cons, reverse_append_cons]
      exact ih hrest (.inl rfl) _ (hrest second List.mem_cons_self)

theorem Settles.array {items : List Json} (h : ∀ item ∈ items, Settles item) :
    Settles (.array items none) := by
  intro expecting around left hexpecting
  have hopen : step expecting around .openArray = .next .valueOrEnd (.array [] :: around) :=
    step_admitsValue hexpecting around Token.noConfusion
  rw [tokenList, List.cons_append, List.append_assoc, List.singleton_append, grow_cons, hopen,
    Step.run]
  -- Without items the bracket closes what has just been opened.
  cases items with
  | nil =>
      rw [itemTokens, List.nil_append, grow_cons]
      rfl
  | cons first more => exact grow_items h (.inr rfl) [] left

/-! ### Members -/

/-- The name of a member comes next, or the end of the object. -/
def Expectation.AdmitsName (expecting : Expectation) : Prop :=
  expecting = .name ∨ expecting = .nameOrEnd

/-- Where a name may come next, only the end of an object is not taken for
    one. -/
theorem step_admitsName (h : expecting.AdmitsName) (around : List Open) {token : Token}
    (htoken : token ≠ .closeObject) : step expecting around token = stepName around token := by
  rcases h with rfl | rfl
  · rfl
  · exact if_neg htoken

/-- Reading goes on behind a member of an object. -/
theorem Settles.member {value : Json} (h : Settles value) (hexpecting : expecting.AdmitsName)
    (gathered : List (Option String × Json)) (last name : Option String) (left : List Token) :
    grow expecting (.object gathered last :: around)
        (.string name :: .colon :: (value.tokenList ++ left)) =
      grow .commaOrEnd (.object ((name, value) :: gathered) name :: around) left := by
  have hname : step expecting (.object gathered last :: around) (.string name) =
      .next .colon (.object gathered name :: around) :=
    step_admitsName hexpecting _ Token.noConfusion
  have hcolon : step .colon (.object gathered name :: around) .colon =
      .next .value (.object gathered name :: around) :=
    rfl
  rw [grow_cons, hname, Step.run, grow_cons, hcolon, Step.run, h .value _ left (.inl rfl)]
  rfl

/-- The members of an object are gathered up to its end. -/
theorem grow_members {first : Option String × Json} {more : List (Option String × Json)}
    (h : ∀ member ∈ first :: more, Settles member.2) (hexpecting : expecting.AdmitsName)
    (gathered : List (Option String × Json)) (last : Option String) (left : List Token) :
    grow expecting (.object gathered last :: around)
        (memberTokens (first :: more) ++ .closeObject :: left) =
      (settle (.object (gathered.reverse ++ first :: more) none) around).run left := by
  rw [reverse_append_cons]
  have hfirst : Settles first.2 := h first List.mem_cons_self
  -- As for items, with the name of the last member left on the stack.
  induction more generalizing first expecting gathered last with
  | nil =>
      rw [memberTokens, List.cons_append, List.cons_append, hfirst.member hexpecting gathered,
        grow_cons, List.append_nil]
      rfl
  | cons second more ih =>
      have hrest := (List.forall_mem_cons.mp h).2
      rw [memberTokens_cons first (List.cons_ne_nil second more), List.cons_append,
        List.cons_append, List.append_assoc, hfirst.member hexpecting gathered, List.cons_append,
        grow_cons, reverse_append_cons]
      exact ih hrest (.inl rfl) _ _ (hrest second List.mem_cons_self)

theorem Settles.object {members : List (Option String × Json)}
    (h : ∀ member ∈ members, Settles member.2) : Settles (.object members none) := by
  intro expecting around left hexpecting
  have hopen : step expecting around .openObject =
      .next .nameOrEnd (.object [] none :: around) :=
    step_admitsValue hexpecting around Token.noConfusion
  rw [tokenList, List.cons_append, List.append_assoc, List.singleton_append, grow_cons, hopen,
    Step.run]
  cases members with
  | nil =>
      rw [memberTokens, List.nil_append, grow_cons]
      rfl
  | cons first more => exact grow_members h (.inr rfl) [] none left

end Containers

/-- The tokens of a tree settle it where a value may come next. -/
theorem Intact.settles {tree : Json} (h : Intact tree) : Settles tree := by
  induction h with
  | null => exact .ofToken Token.noConfusion (fun _ => rfl) rfl
  | bool value => exact .ofToken Token.noConfusion (fun _ => rfl) rfl
  | number literal => exact .ofToken Token.noConfusion (fun _ => rfl) rfl
  | string text => exact .ofToken Token.noConfusion (fun _ => rfl) rfl
  | array _ ih => exact .array ih
  | object _ ih => exact .object ih

theorem Intact.grow_tokenList {tree : Json} (h : Intact tree) :
    grow .value [] tree.tokenList = (tree, []) := by
  have hgrow := h.settles .value [] [] (.inl rfl)
  rwa [List.append_nil] at hgrow

/-! ## A tree has grown from its tokens -/

/-- A tree that ends at a stop. -/
inductive Stopped : Json → Prop where
  | broken (stop : Stop) : Stopped (.broken stop)
  | array (items : List Json) (stop : Stop) : Stopped (.array items (some stop))
  | object (members : List (Option String × Json)) (stop : Stop) :
    Stopped (.object members (some stop))

section Stopped

variable {around : List Open}

theorem Intact.not_stopped {tree : Json} (h : Intact tree) : ¬Stopped tree := by
  cases h <;> rintro ⟨⟩

theorem stopped_close (stop : Stop) (o : Open) : Stopped (o.close (some stop)) := by
  cases o with
  | array items => exact .array _ stop
  | object members name => exact .object _ stop

/-- A stop closes all the containers that are open. -/
theorem stopped_enclose (stop : Stop) {value : Json} (h : Stopped value) :
    Stopped (enclose stop value around) := by
  -- From the inside out, every container gets the stop.
  induction around generalizing value with
  | nil => exact h
  | cons o outer ih => exact ih (stopped_close stop _)

theorem stopped_stopAtValue (stop : Stop) (around : List Open) :
    Stopped (stopAtValue stop around) :=
  stopped_enclose stop (.broken stop)

theorem stopped_stopInside (stop : Stop) (around : List Open) :
    Stopped (stopInside stop around) := by
  cases around with
  | nil => exact .broken stop
  | cons o outer => exact stopped_enclose stop (stopped_close stop o)

theorem stopped_endHere (expecting : Expectation) : Stopped (endHere expecting around) := by
  cases expecting with
  | value | colon => exact stopped_stopAtValue _ _
  | valueOrEnd | name | nameOrEnd | commaOrEnd => exact stopped_stopInside _ _

/-- Where more is expected, a reading that is not stopped goes on with a token. -/
theorem exists_cons_of_not_stopped {expecting : Expectation} {tokens : List Token}
    (h : ¬Stopped (grow expecting around tokens).1) :
    ∃ token rest, tokens = token :: rest ∧ ¬Stopped ((step expecting around token).run rest).1 := by
  cases tokens with
  | nil => exact absurd (stopped_endHere expecting) h
  | cons token rest => exact ⟨token, rest, rfl, grow_cons expecting around token rest ▸ h⟩

end Stopped

/-! ### What may come next -/

section Next

variable {around : List Open} {items : List Json} {members : List (Option String × Json)}
  {last : Option String} {token : Token} {rest : List Token}

theorem eq_of_commaOrEnd_array
    (h : ¬Stopped ((step .commaOrEnd (.array items :: around) token).run rest).1) :
    token = .comma ∨ token = .closeArray := by
  cases token with
  | comma => exact .inl rfl
  | closeArray => exact .inr rfl
  | _ => exact absurd (stopped_stopInside .malformed (.array items :: around)) h

theorem eq_of_commaOrEnd_object
    (h : ¬Stopped ((step .commaOrEnd (.object members last :: around) token).run rest).1) :
    token = .comma ∨ token = .closeObject := by
  cases token with
  | comma => exact .inl rfl
  | closeObject => exact .inr rfl
  | _ => exact absurd (stopped_stopInside .malformed (.object members last :: around)) h

theorem eq_of_name (h : ¬Stopped ((step .name around token).run rest).1) :
    ∃ name, token = .string name := by
  cases token with
  | string name => exact ⟨name, rfl⟩
  | brokenString stop => exact absurd (stopped_stopInside stop around) h
  | _ => exact absurd (stopped_stopInside .malformed around) h

theorem eq_of_colon (h : ¬Stopped ((step .colon around token).run rest).1) : token = .colon := by
  by_contra hcolon
  rw [step, if_neg hcolon] at h
  exact h (stopped_stopAtValue .malformed around)

/-- The end of an array apart, what comes first in it is read as a value. -/
theorem grow_valueOrEnd (h : token ≠ .closeArray) :
    grow .valueOrEnd around (token :: rest) = grow .value around (token :: rest) := by
  rw [grow_cons, grow_cons, step_admitsValue (.inr rfl) around h]
  rfl

/-- The end of an object apart, what comes first in it is read as a name. -/
theorem grow_nameOrEnd (h : token ≠ .closeObject) :
    grow .nameOrEnd around (token :: rest) = grow .name around (token :: rest) := by
  rw [grow_cons, grow_cons, step_admitsName (.inr rfl) around h]
  rfl

end Next

/-! ### Values, items and members -/

section Grown

variable {around : List Open} {tokens : List Token}

/-- The tokens begin with those of a tree. -/
def BeginsWithTree (tokens : List Token) : Prop :=
  ∃ tree left, Intact tree ∧ tokens = tree.tokenList ++ left

theorem BeginsWithTree.ofToken {tree : Json} {token : Token} (h : Intact tree)
    (htokens : tree.tokenList = [token]) (left : List Token) : BeginsWithTree (token :: left) :=
  ⟨tree, left, h, by rw [htokens, List.singleton_append]⟩

/-- Up to a number of tokens, those that are read as a value begin with the tokens of one. -/
def GrownWithin (n : Nat) : Prop :=
  ∀ (tokens : List Token) (around : List Open), tokens.length ≤ n →
    ¬Stopped (grow .value around tokens).1 → BeginsWithTree tokens

variable {n : Nat} (hvalue : GrownWithin n)

include hvalue

/-- The items of an array have been gathered from their tokens. -/
theorem GrownWithin.items (hlength : tokens.length ≤ n) {gathered : List Json}
    (h : ¬Stopped (grow .value (.array gathered :: around) tokens).1) :
    ∃ first more left, (∀ item ∈ first :: more, Intact item) ∧
      tokens = itemTokens (first :: more) ++ .closeArray :: left := by
  induction hn : tokens.length using Nat.strongRecOn generalizing tokens gathered with
  | ind size ih =>
    rcases hvalue tokens _ hlength h with ⟨first, left, hfirst, rfl⟩
    rw [hfirst.settles.item (.inl rfl)] at h
    -- Behind the first item there is a comma, and more items, or the end of the array.
    rcases exists_cons_of_not_stopped h with ⟨token, rest, rfl, hnext⟩
    rcases eq_of_commaOrEnd_array hnext with rfl | rfl
    · rw [List.length_append, List.length_cons] at hn hlength
      rcases ih _ (by omega) (by omega) hnext rfl with ⟨second, more, left, hmore, rfl⟩
      refine ⟨first, second :: more, left, List.forall_mem_cons.mpr ⟨hfirst, hmore⟩, ?_⟩
      rw [itemTokens_cons first (List.cons_ne_nil second more), List.append_assoc,
        List.cons_append]
    · exact ⟨first, [], rest, List.forall_mem_singleton.mpr hfirst, rfl⟩

/-- The members of an object have been gathered from their tokens. -/
theorem GrownWithin.members (hlength : tokens.length ≤ n)
    {gathered : List (Option String × Json)} {last : Option String}
    (h : ¬Stopped (grow .name (.object gathered last :: around) tokens).1) :
    ∃ first more left, (∀ member ∈ first :: more, Intact member.2) ∧
      tokens = memberTokens (first :: more) ++ .closeObject :: left := by
  induction hn : tokens.length using Nat.strongRecOn generalizing tokens gathered last with
  | ind size ih =>
    rcases exists_cons_of_not_stopped h with ⟨token, rest, rfl, hname⟩
    rcases eq_of_name hname with ⟨name, rfl⟩
    rcases exists_cons_of_not_stopped hname with ⟨token, rest, rfl, hcolon⟩
    obtain rfl := eq_of_colon hcolon
    rw [List.length_cons, List.length_cons] at hn hlength
    -- The value stands behind a name and a colon, and is within the bound all the more.
    rcases hvalue rest _ (by omega) hcolon with ⟨value, left, hintact, rfl⟩
    rw [hintact.settles.member (.inl rfl)] at h
    rcases exists_cons_of_not_stopped h with ⟨token, rest, rfl, hnext⟩
    rcases eq_of_commaOrEnd_object hnext with rfl | rfl
    · rw [List.length_append, List.length_cons] at hn hlength
      rcases ih _ (by omega) (by omega) hnext rfl with ⟨second, more, left, hmore, rfl⟩
      refine ⟨(name, value), second :: more, left, List.forall_mem_cons.mpr ⟨hintact, hmore⟩, ?_⟩
      rw [memberTokens_cons _ (List.cons_ne_nil second more)]
      simp only [List.cons_append, List.append_assoc]
    · exact ⟨(name, value), [], rest, List.forall_mem_singleton.mpr hintact, rfl⟩

/-- What is read as an array behind its bracket. -/
theorem GrownWithin.array (hlength : tokens.length ≤ n)
    (h : ¬Stopped (grow .valueOrEnd (.array [] :: around) tokens).1) :
    BeginsWithTree (.openArray :: tokens) := by
  rcases exists_cons_of_not_stopped h with ⟨token, rest, rfl, hfirst⟩
  by_cases hclose : token = .closeArray
  · exact ⟨.array [] none, rest, .array (List.forall_mem_nil _), by rw [hclose]; rfl⟩
  · -- Otherwise what comes first is an item like those that follow.
    rw [grow_valueOrEnd hclose] at h
    rcases hvalue.items hlength h with ⟨first, more, left, hitems, htokens⟩
    refine ⟨.array (first :: more) none, left, .array hitems, ?_⟩
    rw [htokens, tokenList, List.cons_append, List.append_assoc, List.singleton_append]

/-- What is read as an object behind its brace. -/
theorem GrownWithin.object (hlength : tokens.length ≤ n)
    (h : ¬Stopped (grow .nameOrEnd (.object [] none :: around) tokens).1) :
    BeginsWithTree (.openObject :: tokens) := by
  rcases exists_cons_of_not_stopped h with ⟨token, rest, rfl, hfirst⟩
  by_cases hclose : token = .closeObject
  · exact ⟨.object [] none, rest, .object (List.forall_mem_nil _), by rw [hclose]; rfl⟩
  · rw [grow_nameOrEnd hclose] at h
    rcases hvalue.members hlength h with ⟨first, more, left, hmembers, htokens⟩
    refine ⟨.object (first :: more) none, left, .object hmembers, ?_⟩
    rw [htokens, tokenList, List.cons_append, List.append_assoc, List.singleton_append]

omit hvalue in
theorem grownWithin (n : Nat) : GrownWithin n := by
  induction n with
  | zero =>
      intro tokens around hlength h
      rcases exists_cons_of_not_stopped h with ⟨token, rest, rfl, -⟩
      cases hlength
  | succ n ih =>
      intro tokens around hlength h
      rcases exists_cons_of_not_stopped h with ⟨token, rest, rfl, hnext⟩
      -- The first token says what is read, and the rest of it lies within the smaller bound.
      have hrest : rest.length ≤ n := Nat.le_of_succ_le_succ hlength
      cases token with
      | null => exact .ofToken .null rfl rest
      | bool value => exact .ofToken (.bool value) rfl rest
      | number literal => exact .ofToken (.number literal) rfl rest
      | string text => exact .ofToken (.string text) rfl rest
      | openArray => exact ih.array hrest hnext
      | openObject => exact ih.object hrest hnext
      | brokenString stop | brokenWord stop =>
          exact absurd (stopped_stopAtValue stop around) hnext
      -- No other mark begins a value.
      | _ => exact absurd (stopped_stopAtValue .malformed around) hnext

omit hvalue in
/-- A tree that is not stopped has grown from its own tokens. -/
theorem exists_tokenList_of_grow {tree : Json} {left : List Token}
    (h : grow .value [] tokens = (tree, left)) (htree : ¬Stopped tree) :
    Intact tree ∧ tokens = tree.tokenList ++ left := by
  have hgrown : ¬Stopped (grow .value [] tokens).1 := by
    rwa [h]
  rcases grownWithin _ tokens [] (Nat.le_refl _) hgrown with ⟨value, rest, hvalue, rfl⟩
  -- The tokens that were found grow into one tree only.
  have hsettled := hvalue.settles .value [] rest (.inl rfl)
  obtain ⟨rfl, rfl⟩ := Prod.mk.inj (h.symm.trans hsettled)
  exact ⟨hvalue, rfl⟩

end Grown

/-! ## Texts of a tree -/

/-- No token stands for text that cannot be read. -/
def Readable (tokens : List Token) : Prop :=
  ∀ token ∈ tokens, token.isBroken = false

theorem readable_itemTokens {items : List Json} (h : ∀ item ∈ items, Readable item.tokenList) :
    Readable (itemTokens items) := by
  induction items with
  | nil => exact List.forall_mem_nil _
  | cons first more ih =>
      rcases List.forall_mem_cons.mp h with ⟨hfirst, hmore⟩
      cases more with
      | nil => exact hfirst
      | cons second more =>
          rw [itemTokens_cons first (List.cons_ne_nil second more)]
          exact List.forall_mem_append.mpr ⟨hfirst, List.forall_mem_cons.mpr ⟨rfl, ih hmore⟩⟩

theorem readable_memberTokens {members : List (Option String × Json)}
    (h : ∀ member ∈ members, Readable member.2.tokenList) : Readable (memberTokens members) := by
  -- The name and the colon stand in front of every value.
  have hnamed {name : Option String} {tokens : List Token} (htokens : Readable tokens) :
      Readable (.string name :: .colon :: tokens) :=
    List.forall_mem_cons.mpr ⟨rfl, List.forall_mem_cons.mpr ⟨rfl, htokens⟩⟩
  induction members with
  | nil => exact List.forall_mem_nil _
  | cons first more ih =>
      rcases List.forall_mem_cons.mp h with ⟨hfirst, hmore⟩
      cases more with
      | nil => exact hnamed hfirst
      | cons second more =>
          rw [memberTokens_cons first (List.cons_ne_nil second more)]
          exact hnamed
            (List.forall_mem_append.mpr ⟨hfirst, List.forall_mem_cons.mpr ⟨rfl, ih hmore⟩⟩)

/-- The tokens of a tree can all be read. -/
theorem Intact.readable {tree : Json} (h : Intact tree) : Readable tree.tokenList := by
  induction h with
  | null | bool | number | string => exact List.forall_mem_singleton.mpr rfl
  | array _ ih =>
      refine List.forall_mem_cons.mpr ⟨rfl, List.forall_mem_append.mpr ⟨?_, ?_⟩⟩
      · exact readable_itemTokens ih
      · exact List.forall_mem_singleton.mpr rfl
  | object _ ih =>
      refine List.forall_mem_cons.mpr ⟨rfl, List.forall_mem_append.mpr ⟨?_, ?_⟩⟩
      · exact readable_memberTokens ih
      · exact List.forall_mem_singleton.mpr rfl

/-- The texts of a tree are those that spell its tokens. -/
theorem ofText_eq_iff {text : String} {tree : Json} :
    ofText text = (tree, []) ∧ ¬Stopped tree ↔
      Intact tree ∧ Spells tree.tokenList text.toList := by
  constructor
  · rintro ⟨htext, htree⟩
    rcases exists_tokenList_of_grow htext htree with ⟨hintact, htokens⟩
    rw [List.append_nil] at htokens
    refine ⟨hintact, ?_⟩
    -- Its tokens are those of the text, and none of them is broken.
    rw [← htokens]
    exact spells_tokens (htokens ▸ hintact.readable)
  · rintro ⟨hintact, hspells⟩
    refine ⟨?_, hintact.not_stopped⟩
    rw [ofText, tokens_eq_of_spells hspells, hintact.grow_tokenList]

/-- No two trees have a text in common. -/
theorem eq_of_spells {text : String} {tree other : Json} (htree : Intact tree)
    (htext : Spells tree.tokenList text.toList) (hother : Intact other)
    (hotherText : Spells other.tokenList text.toList) : tree = other :=
  congrArg Prod.fst ((ofText_eq_iff.mpr ⟨htree, htext⟩).1.symm.trans
    (ofText_eq_iff.mpr ⟨hother, hotherText⟩).1)

end Json

end FunctionalOptions
