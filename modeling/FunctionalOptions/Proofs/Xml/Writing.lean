import FunctionalOptions.Text.Ascii
import Mathlib.Data.List.Perm.Basic

/-!
# Writing Elements

How elements are written, which leaves a writer much to choose. The attributes
of a tag come in any order and between quotes of either kind, a character of a
value stands for itself or goes by a name, an element with nothing inside is
one tag or two, and between elements there may be blanks and comments.

None of this means anything, so elements are taken here without it: a node is a
name, attributes and the nodes inside. The texts of a node are told by a
relation rather than by a function, since there is no one text that a writer
has to choose.

The relation is about lists of nodes. An element that follows another one and
an element inside another one are then cases of one induction.

## Main definitions

* `Node`: An element, with its writing left aside.
* `WrittenValue`: The texts of a value.
* `WrittenAttributes`, `WrittenTag`: The texts of the attributes of a tag, and
  of the tag.
* `Gap`, `Prolog`: What may stand between elements, and in front of them all.
* `Written`: The texts of a list of nodes.
* `Writable`: There is a text for some nodes.

## Theorems

* `Written.append`: The texts of nodes make up that of all of them.
* `writable_element`: An element with usable names can be written, if what is
  inside can.
-/

namespace FunctionalOptions

namespace Xml

/-- An element, with its writing left aside: its name, its attributes and the
    elements inside. -/
inductive Node where
  | element (name : String) (attributes : List (String × String)) (children : List Node)

/-! ## Tags -/

/-- The characters that go by a name in a value, with their names. -/
def namedChars : List (Char × String) :=
  [('<', "lt"), ('>', "gt"), ('&', "amp"), ('\'', "apos"), ('"', "quot")]

/-- The character can stand for itself between two quotes: it neither begins
    markup nor ends the value. -/
def isPlain (quote c : Char) : Bool :=
  c != '&' && c != '<' && c != quote

theorem isPlain_iff {quote c : Char} :
    isPlain quote c = true ↔ c ≠ '&' ∧ c ≠ '<' ∧ c ≠ quote := by
  simp only [isPlain, Bool.and_eq_true, bne_iff_ne, and_assoc]

/-- The texts of a value between two quotes. -/
inductive WrittenValue (quote : Char) : List Char → List Char → Prop where
  | nil : WrittenValue quote [] []
  | plain {c : Char} {value text : List Char} : isPlain quote c = true →
    WrittenValue quote value text → WrittenValue quote (c :: value) (c :: text)
  | named {c : Char} {name : String} {value text : List Char} : (c, name) ∈ namedChars →
    WrittenValue quote value text →
    WrittenValue quote (c :: value) ('&' :: (name.toList ++ ';' :: text))

/-- The character can be part of a name. -/
def inName (c : Char) : Bool :=
  !(Text.isBlank c || ['<', '>', '/', '=', '"', '\'', '&', '!', '?'].contains c)

/-- The text can be the name of an element or an attribute. -/
def isName (text : String) : Bool :=
  !text.toList.isEmpty && text.toList.all inName

/-- The characters are blanks, if there are any. -/
def Blanks (text : List Char) : Prop :=
  ∀ c ∈ text, Text.isBlank c = true

/-- The texts of attributes as they stand behind the name of a tag. Blanks are
    needed in front of each of them and may stand around its equals sign and
    behind the last one. -/
inductive WrittenAttributes : List (String × String) → List Char → Prop where
  | nil {blanks : List Char} : Blanks blanks → WrittenAttributes [] blanks
  | cons {key value : String} {others : List (String × String)} {quote : Char}
      {front before behind text rest : List Char} :
    front ≠ [] → Blanks front → isName key = true → Blanks before → Blanks behind →
    quote = '"' ∨ quote = '\'' → WrittenValue quote value.toList text →
    WrittenAttributes others rest →
    WrittenAttributes ((key, value) :: others)
      (front ++ (key.toList ++ (before ++ '=' :: (behind ++ quote :: (text ++ quote :: rest)))))

/-- The texts of a tag between its angle brackets, without the slash that some
    tags have. No key comes twice, and the order of the attributes is free. -/
inductive WrittenTag (name : String) (attributes : List (String × String)) :
    List Char → Prop where
  | intro {order : List (String × String)} {text : List Char} : isName name = true →
    (attributes.map Prod.fst).Nodup → order.Perm attributes → WrittenAttributes order text →
    WrittenTag name attributes (name.toList ++ text)

theorem blanks_nil : Blanks [] :=
  fun _ h => absurd h List.not_mem_nil

theorem blanks_space : Blanks [' '] :=
  List.forall_mem_singleton.mpr rfl

/-- A value without characters that need a name is a text of itself. -/
theorem writtenValue_self {quote : Char} {value : List Char}
    (h : value.all (isPlain quote) = true) : WrittenValue quote value value := by
  induction value with
  | nil => exact .nil
  | cons c value ih =>
      rw [List.all_cons, Bool.and_eq_true] at h
      exact .plain h.1 (ih h.2)

/-- An attribute with a space in front of it and no others around. -/
theorem WrittenAttributes.tight {key value : String} {others : List (String × String)}
    {text rest : List Char} (hkey : isName key = true) (hvalue : WrittenValue '"' value.toList text)
    (hothers : WrittenAttributes others rest) :
    WrittenAttributes ((key, value) :: others)
      ([' '] ++ (key.toList ++ ([] ++ '=' :: ([] ++ '"' :: (text ++ '"' :: rest))))) :=
  .cons (List.cons_ne_nil ' ' []) blanks_space hkey blanks_nil blanks_nil (Or.inl rfl) hvalue hothers

/-- A tag without attributes. -/
theorem WrittenTag.bare {name : String} (hname : isName name = true) :
    WrittenTag name [] (name.toList ++ []) :=
  .intro hname List.nodup_nil (List.Perm.refl _) (.nil blanks_nil)

/-- A tag with one attribute, whose value has no characters that need a name. -/
theorem WrittenTag.single {name key value : String} (hname : isName name = true)
    (hkey : isName key = true) (hvalue : value.toList.all (isPlain '"') = true) :
    WrittenTag name [(key, value)] (name.toList ++
      ([' '] ++ (key.toList ++ ([] ++ '=' :: ([] ++ '"' :: (value.toList ++ ['"'])))))) :=
  .intro hname (List.pairwise_singleton _ _) (List.Perm.refl _)
    (.tight hkey (writtenValue_self hvalue) (.nil blanks_nil))

/-! ## Elements -/

/-- What a comment may hold: no two hyphens in a row, and none at its end. -/
inductive CommentBody : List Char → Prop where
  | nil : CommentBody []
  | plain {c : Char} {body : List Char} : c ≠ '-' → CommentBody body → CommentBody (c :: body)
  | hyphen {c : Char} {body : List Char} : c ≠ '-' → CommentBody body →
    CommentBody ('-' :: c :: body)

/-- What may stand between elements: blanks and comments. -/
inductive Gap : List Char → Prop where
  | nil : Gap []
  | blank {c : Char} {rest : List Char} : Text.isBlank c = true → Gap rest → Gap (c :: rest)
  | comment {body rest : List Char} : CommentBody body → Gap rest →
    Gap ('<' :: '!' :: '-' :: '-' :: (body ++ '-' :: '-' :: '>' :: rest))

/-- What may stand in front of everything else: the declaration that the text is
    one of elements. -/
inductive Prolog : List Char → Prop where
  | none : Prolog []
  | declaration {inside : List Char} : (∀ c ∈ inside, c ≠ '?') →
    Prolog ('<' :: '?' :: 'x' :: 'm' :: 'l' :: (inside ++ ['?', '>']))

/-- The texts of a list of nodes, with what may stand around and between
    them. -/
inductive Written : List Node → List Char → Prop where
  | nil {gap : List Char} : Gap gap → Written [] gap
  /-- An element without contents as one tag. -/
  | empty {gap tag rest : List Char} {name : String} {attributes : List (String × String)}
      {nodes : List Node} :
    Gap gap → WrittenTag name attributes tag → Written nodes rest →
    Written (.element name attributes [] :: nodes) (gap ++ '<' :: (tag ++ '/' :: '>' :: rest))
  /-- An element as a start tag and an end tag with its contents between them. -/
  | node {gap tag inside blanks rest : List Char} {name : String}
      {attributes : List (String × String)} {children nodes : List Node} :
    Gap gap → WrittenTag name attributes tag → Written children inside → Blanks blanks →
    Written nodes rest →
    Written (.element name attributes children :: nodes)
      (gap ++ '<' :: (tag ++ '>' :: (inside ++ '<' :: '/' :: (name.toList ++ (blanks ++
        '>' :: rest)))))

/-! ## There is a text -/

/-- There is a text for the nodes. -/
def Writable (nodes : List Node) : Prop :=
  ∃ text, Written nodes text

theorem Gap.append {gap rest : List Char} (h : Gap gap) (hrest : Gap rest) : Gap (gap ++ rest) := by
  induction h with
  | nil => exact hrest
  | blank hblank _ ih => exact .blank hblank ih
  | comment hbody _ ih =>
      have h := Gap.comment hbody ih
      simpa using h

/-- More may stand in front of the text of nodes. -/
theorem Written.of_gap {nodes : List Node} {gap text : List Char} (hgap : Gap gap)
    (h : Written nodes text) : Written nodes (gap ++ text) := by
  cases h with
  | nil hfront => exact .nil (hgap.append hfront)
  | empty hfront htag hrest =>
      rw [← List.append_assoc]
      exact .empty (hgap.append hfront) htag hrest
  | node hfront htag hinside hblanks hrest =>
      rw [← List.append_assoc]
      exact .node (hgap.append hfront) htag hinside hblanks hrest

/-- The texts of nodes, one behind the other, are a text of them all. -/
theorem Written.append {nodes more : List Node} {text rest : List Char} (h : Written nodes text)
    (hmore : Written more rest) : Written (nodes ++ more) (text ++ rest) := by
  induction h with
  | nil hgap => exact hmore.of_gap hgap
  | empty hgap htag _ ih =>
      have h := Written.empty hgap htag ih
      simpa using h
  | node hgap htag hinside hblanks _ _ ih =>
      have h := Written.node hgap htag hinside hblanks ih
      simpa using h

theorem writable_append {nodes more : List Node} (h : Writable nodes) (hmore : Writable more) :
    Writable (nodes ++ more) := by
  rcases h with ⟨text, htext⟩
  rcases hmore with ⟨rest, hrest⟩
  exact ⟨_, htext.append hrest⟩

theorem writable_nil : Writable [] :=
  ⟨[], .nil .nil⟩

/-- Nodes can be written if each of them can. -/
theorem writable_of_forall {nodes : List Node} (h : ∀ node ∈ nodes, Writable [node]) :
    Writable nodes := by
  induction nodes with
  | nil => exact writable_nil
  | cons node nodes ih =>
      rw [List.forall_mem_cons] at h
      exact writable_append h.1 (ih h.2)

/-- Every value can be written, with names for the characters that need one. -/
theorem exists_writtenValue (value : List Char) : ∃ text, WrittenValue '"' value text := by
  induction value with
  | nil => exact ⟨[], .nil⟩
  | cons c value ih =>
      rcases ih with ⟨text, htext⟩
      -- Three characters cannot stand for themselves between double quotes.
      by_cases hamp : c = '&'
      · subst hamp
        exact ⟨_, .named (show ('&', "amp") ∈ namedChars by decide) htext⟩
      by_cases hless : c = '<'
      · subst hless
        exact ⟨_, .named (show ('<', "lt") ∈ namedChars by decide) htext⟩
      by_cases hquote : c = '"'
      · subst hquote
        exact ⟨_, .named (show ('"', "quot") ∈ namedChars by decide) htext⟩
      exact ⟨_, .plain (isPlain_iff.mpr ⟨hamp, hless, hquote⟩) htext⟩

theorem exists_writtenAttributes {attributes : List (String × String)}
    (h : ∀ key ∈ attributes.map Prod.fst, isName key = true) :
    ∃ text, WrittenAttributes attributes text := by
  induction attributes with
  | nil => exact ⟨[], .nil blanks_nil⟩
  | cons entry attributes ih =>
      rw [List.map_cons, List.forall_mem_cons] at h
      rcases ih h.2 with ⟨rest, hrest⟩
      rcases exists_writtenValue entry.2.toList with ⟨text, htext⟩
      exact ⟨_, .tight h.1 htext hrest⟩

/-- An element with a usable name and usable keys, all of them different, can be
    written if what is inside can. -/
theorem writable_element {name : String} {attributes : List (String × String)}
    {children : List Node} (hname : isName name = true)
    (hkeys : ∀ key ∈ attributes.map Prod.fst, isName key = true)
    (hnodup : (attributes.map Prod.fst).Nodup) (h : Writable children) :
    Writable [.element name attributes children] := by
  rcases exists_writtenAttributes hkeys with ⟨text, htext⟩
  rcases h with ⟨inside, hinside⟩
  have htag : WrittenTag name attributes (name.toList ++ text) :=
    .intro hname hnodup (List.Perm.refl _) htext
  exact ⟨_, .node .nil htag hinside blanks_nil (.nil .nil)⟩

end Xml

end FunctionalOptions
