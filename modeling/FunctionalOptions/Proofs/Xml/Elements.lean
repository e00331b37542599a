import FunctionalOptions.Proofs.Xml.Tags
import FunctionalOptions.Xml.Element

/-!
# Reading Written Elements

The elements of a written text are those it was written for. Reading goes from
the text to tags, and then, with a stack of open elements, from the tags to
elements. The statement that goes through the induction is about both at once,
and quantifies over the stack and over what follows: the text of some nodes puts
their elements behind what the innermost open element has so far, and the
reading goes on behind the text.

An element keeps the text of its tag, so different writings of a node have
different elements. What they have in common is what can be asked of them: the
name, the attributes by their keys, and the elements inside.

## Main definitions

* `Passes`: The end of a tag is not found inside a text.
* `Conveys`: Elements have what nodes have.
* `Assembly.addAll`: Take in several finished elements.

## Theorems

* `Passes.scanTag_append`: A tag ends at the bracket behind it.
* `markup_gap`, `markup_prolog`: What may stand between elements has no tags.
* `WrittenTag.markup_start`, `WrittenTag.markup_empty`, `markup_close`: A written
  tag is read as the tag it is.
* `Written.assemble_eq`: The text of some nodes adds their elements.
* `Written.ofText_eq`: The elements of the text of some nodes are theirs.
-/

namespace FunctionalOptions

namespace Xml

/-! ## The ends of tags -/

/-- The search for the end of a tag goes over the text and is outside all values
    behind it, if it is in front of it. -/
def Passes (text : List Char) : Prop :=
  ∀ rest, scanTag none (text ++ rest) =
    (scanTag none rest).map fun found => (text ++ found.1, found.2)

namespace Passes

theorem nil : Passes [] := by
  intro rest
  rw [List.nil_append]
  cases scanTag none rest <;> rfl

theorem append {text more : List Char} (h : Passes text) (hmore : Passes more) :
    Passes (text ++ more) := by
  intro rest
  rw [List.append_assoc, h, hmore]
  cases scanTag none rest with
  | error fault => rfl
  | ok found =>
      show Except.ok (text ++ (more ++ found.1), found.2) = _
      rw [← List.append_assoc]
      rfl

/-- A character that neither ends a tag nor begins a value is passed over. -/
theorem char {c : Char} (hc : c ≠ '>') (hquote : isQuote c = false) : Passes [c] := by
  intro rest
  -- The search stays outside of values, and takes the character along.
  rw [List.singleton_append, scanTag, if_neg (fun h => hc h.2), quoteAfter, hquote]
  cases h : scanTag none rest with
  | error fault => simp [h, Except.map]
  | ok found => simp [h, Except.map]

theorem of_forall {text : List Char} (h : ∀ c ∈ text, c ≠ '>' ∧ isQuote c = false) :
    Passes text := by
  induction text with
  | nil => exact nil
  | cons c text ih =>
      rw [List.forall_mem_cons] at h
      exact (char h.1.1 h.1.2).append (ih h.2)

/-- Inside a value the search goes on to the quote that ends it. -/
theorem scanTag_value {quote : Char} {text : List Char} (h : ∀ c ∈ text, c ≠ quote)
    (rest : List Char) :
    scanTag (some quote) (text ++ quote :: rest) =
      (scanTag none rest).map fun found => (text ++ quote :: found.1, found.2) := by
  have hvalue : ∀ c : Char, ¬(some quote = none ∧ c = '>') := fun _ h => nomatch h.1
  induction text with
  | nil =>
      rw [List.nil_append, scanTag, if_neg (hvalue quote), quoteAfter, if_pos rfl]
      cases scanTag none rest <;> rfl
  | cons c text ih =>
      rw [List.forall_mem_cons] at h
      rw [List.cons_append, scanTag, if_neg (hvalue c), quoteAfter, if_neg h.1, ih h.2]
      cases scanTag none rest <;> rfl

/-- A value with its quotes is passed over, whatever it holds. -/
theorem quoted {quote : Char} {text : List Char} (hquote : isQuote quote = true)
    (h : ∀ c ∈ text, c ≠ quote) : Passes (quote :: (text ++ [quote])) := by
  intro rest
  have hend : quote ≠ '>' := by
    rintro rfl
    exact absurd hquote (by decide)
  rw [List.cons_append, List.append_assoc, List.singleton_append, scanTag,
    if_neg (fun h => hend h.2), quoteAfter, if_pos hquote, scanTag_value h]
  cases scanTag none rest with
  | error fault => rfl
  | ok found => simp [Except.map]

/-- A tag ends at the bracket behind it. -/
theorem scanTag_append {tag : List Char} (h : Passes tag) (rest : List Char) :
    scanTag none (tag ++ '>' :: rest) = .ok (tag, rest) := by
  rw [h, scanTag, if_pos ⟨rfl, rfl⟩]
  show Except.ok (tag ++ [], rest) = _
  rw [List.append_nil]

end Passes

/-- A blank neither ends a tag nor begins a value. -/
theorem not_isQuote_of_isBlank {c : Char} (h : Text.isBlank c = true) :
    c ≠ '>' ∧ isQuote c = false := by
  simp only [Text.isBlank, Bool.or_eq_true, decide_eq_true_eq] at h
  rcases h with ((rfl | rfl) | rfl) | rfl <;> decide

theorem Blanks.passes {blanks : List Char} (h : Blanks blanks) : Passes blanks :=
  .of_forall fun c hc => not_isQuote_of_isBlank (h c hc)

/-- A name is passed over. -/
theorem passes_name {name : List Char} (h : ∀ c ∈ name, inName c = true) : Passes name := by
  refine .of_forall fun c hc => ⟨ne_mark_of_inName (h c hc) (by decide), ?_⟩
  rw [isQuote, decide_eq_false (ne_mark_of_inName (h c hc) (by decide)),
    decide_eq_false (ne_mark_of_inName (h c hc) (by decide))]
  rfl

theorem WrittenAttributes.passes {order : List (String × String)} {text : List Char}
    (h : WrittenAttributes order text) : Passes text := by
  induction h with
  | nil hblanks => exact hblanks.passes
  | @cons key value others quote front before behind text rest _ hfront hkey hbefore hbehind hquote
      hvalue _ ih =>
      -- The text of an attribute is a row of pieces, each of which is passed over.
      have hquote := isQuote_of_or hquote
      have hmark : Passes ['='] := .char (by decide) (by decide)
      have hkey : Passes key.toList := passes_name (isName.forall_mem hkey)
      have hvalue : Passes (quote :: (text ++ [quote])) := .quoted hquote (hvalue.ne_quote hquote)
      have h := hfront.passes.append (hkey.append (hbefore.passes.append
        (hmark.append (hbehind.passes.append (hvalue.append ih)))))
      simpa using h

theorem WrittenTag.passes {name : String} {attributes : List (String × String)} {text : List Char}
    (h : WrittenTag name attributes text) : Passes text := by
  obtain ⟨hname, -, -, htext⟩ := h
  exact (passes_name (isName.forall_mem hname)).append htext.passes

/-! ## Tags -/

/-- The last character of the attributes of a tag is no slash, so a slash behind
    them belongs to the tag. -/
theorem WrittenAttributes.getLast?_ne {order : List (String × String)} {text : List Char}
    (h : WrittenAttributes order text) : ∀ c ∈ text.getLast?, c ≠ '/' := by
  induction h with
  | nil hblanks =>
      rintro c hc rfl
      exact absurd (hblanks _ (List.mem_of_getLast? hc)) (by decide)
  | @cons key value others quote front before behind text rest _ _ _ _ _ hquote _ _ ih =>
      have hassoc : front ++ (key.toList ++ (before ++ '=' :: (behind ++ quote :: (text ++
          quote :: rest)))) =
          (front ++ (key.toList ++ (before ++ '=' :: (behind ++ quote :: text)))) ++
            quote :: rest := by
        simp
      rw [hassoc, List.getLast?_append_cons]
      -- The last character is that of the attributes behind, or the quote.
      cases rest with
      | nil =>
          rintro c ⟨⟩
          rcases hquote with rfl | rfl <;> decide
      | cons d more =>
          rw [List.getLast?_cons_cons]
          exact ih

section Tag

variable {name : String} {attributes : List (String × String)} {tag : List Char}

/-- A tag begins with a character of its name. -/
theorem WrittenTag.exists_cons (h : WrittenTag name attributes tag) :
    ∃ c rest, tag = c :: rest ∧ inName c = true := by
  obtain ⟨hname, -, -, -⟩ := h
  obtain ⟨c, rest, hchars, hin⟩ := isName.exists_cons hname
  rw [hchars]
  exact ⟨c, _, rfl, hin c List.mem_cons_self⟩

/-- A tag does not end in a slash, unless one is put behind it. -/
theorem WrittenTag.getLast?_ne (h : WrittenTag name attributes tag) :
    ¬tag.getLast? = some '/' := by
  obtain @⟨order, text, hname, -, -, htext⟩ := h
  intro hlast
  rw [List.getLast?_append] at hlast
  -- Without attributes and blanks the tag ends with its name.
  cases htext' : text.getLast? with
  | none =>
      rw [htext', Option.none_or] at hlast
      have hin := isName.forall_mem hname '/' (List.mem_of_getLast? hlast)
      exact absurd hin (by decide)
  | some c =>
      rw [htext', Option.some_or] at hlast
      exact htext.getLast?_ne c htext' (Option.some.inj hlast)

/-- A tag that a name stands first in is no end tag. -/
theorem tagMarkup_cons {c : Char} (hc : inName c = true) (rest : List Char) :
    tagMarkup (c :: rest) =
      if (c :: rest).getLast? = some '/' then .empty (.ofText (c :: rest).dropLast)
      else .start (.ofText (c :: rest)) := by
  rw [tagMarkup]
  rintro name ⟨⟩
  exact absurd hc (by decide)

theorem WrittenTag.tagMarkup_start (h : WrittenTag name attributes tag) :
    tagMarkup tag = .start (.ofText tag) := by
  have hlast := h.getLast?_ne
  obtain ⟨c, rest, rfl, hc⟩ := h.exists_cons
  rw [tagMarkup_cons hc, if_neg hlast]

theorem WrittenTag.tagMarkup_empty (h : WrittenTag name attributes tag) :
    tagMarkup (tag ++ ['/']) = .empty (.ofText tag) := by
  obtain ⟨c, rest, rfl, hc⟩ := h.exists_cons
  rw [List.cons_append, tagMarkup_cons hc, ← List.cons_append, if_pos List.getLast?_concat,
    List.dropLast_concat]

/-- The name of an end tag is read without the blanks behind it. -/
theorem tagMarkup_close (hname : isName name = true) {blanks : List Char} (hblanks : Blanks blanks) :
    tagMarkup ('/' :: (name.toList ++ blanks)) = .close name := by
  obtain ⟨c, rest, hchars, hin⟩ := isName.exists_cons hname
  have hfirst : Text.isBlank c = false := not_isBlank_of_inName (hin c List.mem_cons_self)
  -- The name is not trimmed away: its first character is no blank.
  have hsome : ¬(name.toList ++ blanks).all Text.isBlank = true := by
    rw [hchars, List.cons_append, List.all_cons, hfirst]
    exact Bool.false_ne_true
  have hlast : ∀ d ∈ name.toList.reverse.head?, Text.isBlank d = false := by
    intro d hd
    have hmem : d ∈ name.toList := List.mem_reverse.mp (List.mem_of_mem_head? hd)
    exact not_isBlank_of_inName (isName.forall_mem hname d hmem)
  -- The blanks are dropped from the end, that is, in front of the reversed name.
  have hblanks : ∀ d ∈ blanks.reverse, Text.isBlank d = true := fun d hd =>
    hblanks d (List.mem_reverse.mp hd)
  rw [tagMarkup, trimName, if_neg hsome, List.reverse_append,
    (Text.takeWhile_append_of_head hblanks hlast).2, List.reverse_reverse, String.ofList_toList]

/-! ## Markup -/

/-- What is no declaration and no instruction is read as a tag. -/
theorem markup_scanTag {text found after : List Char} (h : scanTag none text = .ok (found, after))
    (hhead : ∀ c ∈ text.head?, c ≠ '!' ∧ c ≠ '?') :
    markup ('<' :: text) = tagMarkup found :: markup after := by
  rw [markup]
  · split
    · next hfound =>
      rw [h] at hfound
      cases hfound
      rfl
    · next hfault =>
      rw [h] at hfault
      cases hfault
  · rintro _ rfl
    exact (hhead _ rfl).1 rfl
  · rintro _ rfl
    exact (hhead _ rfl).2 rfl

/-- A tag is read up to its bracket. -/
theorem markup_tag {c : Char} (h : Passes (c :: tag)) (hdeclaration : c ≠ '!')
    (hinstruction : c ≠ '?') (rest : List Char) :
    markup ('<' :: c :: (tag ++ '>' :: rest)) = tagMarkup (c :: tag) :: markup rest := by
  refine markup_scanTag (h.scanTag_append rest) ?_
  rintro _ ⟨⟩
  exact ⟨hdeclaration, hinstruction⟩

theorem WrittenTag.markup_start (h : WrittenTag name attributes tag) (rest : List Char) :
    markup ('<' :: (tag ++ '>' :: rest)) = .start (.ofText tag) :: markup rest := by
  rw [← h.tagMarkup_start]
  have hpasses := h.passes
  obtain ⟨c, more, rfl, hc⟩ := h.exists_cons
  exact markup_tag hpasses (ne_mark_of_inName hc (by decide)) (ne_mark_of_inName hc (by decide)) rest

theorem WrittenTag.markup_empty (h : WrittenTag name attributes tag) (rest : List Char) :
    markup ('<' :: (tag ++ '/' :: '>' :: rest)) = .empty (.ofText tag) :: markup rest := by
  rw [← h.tagMarkup_empty]
  have hslash : Passes ['/'] := .char (by decide) (by decide)
  have hpasses := h.passes.append hslash
  obtain ⟨c, more, rfl, hc⟩ := h.exists_cons
  rw [List.cons_append] at hpasses
  have htag := markup_tag hpasses (ne_mark_of_inName hc (by decide))
    (ne_mark_of_inName hc (by decide)) rest
  rw [List.append_assoc] at htag
  exact htag

theorem markup_close (hname : isName name = true) {blanks : List Char} (hblanks : Blanks blanks)
    (rest : List Char) :
    markup ('<' :: '/' :: (name.toList ++ (blanks ++ '>' :: rest))) =
      .close name :: markup rest := by
  have hslash : Passes ['/'] := .char (by decide) (by decide)
  have hpasses := hslash.append ((passes_name (isName.forall_mem hname)).append hblanks.passes)
  rw [← tagMarkup_close hname hblanks, ← List.append_assoc]
  exact markup_tag hpasses (by decide) (by decide) rest

end Tag

/-- A character that begins no markup is passed over. -/
theorem markup_char {c : Char} (hangle : c ≠ '<') (hampersand : c ≠ '&') (rest : List Char) :
    markup (c :: rest) = markup rest := by
  rw [markup]
  · exact hampersand
  · exact fun _ h _ => hangle h
  · exact fun _ h _ => hangle h
  · exact hangle

theorem markup_blank {c : Char} (h : Text.isBlank c = true) (rest : List Char) :
    markup (c :: rest) = markup rest := by
  have hne : ∀ {mark : Char}, Text.isBlank mark = false → c ≠ mark := by
    rintro _ hmark rfl
    exact Bool.false_ne_true (hmark.symm.trans h)
  exact markup_char (hne rfl) (hne rfl) rest

/-- Markup that is passed over has no tags. -/
theorem markup_declaration {rest after : List Char} (h : afterDeclaration rest = .ok after) :
    markup ('<' :: '!' :: rest) = markup after := by
  rw [markup]
  split
  · next hfound =>
    rw [h] at hfound
    cases hfound
    rfl
  · next hfault =>
    rw [h] at hfault
    cases hfault

theorem markup_instruction {rest after : List Char} (h : afterInstruction rest = .ok after) :
    markup ('<' :: '?' :: rest) = markup after := by
  rw [markup]
  split
  · next hfound =>
    rw [h] at hfound
    cases hfound
    rfl
  · next hfault =>
    rw [h] at hfault
    cases hfault

/-- A mark is looked for from its first character on. -/
theorem after?_append {first : Char} {mark inside : List Char} (h : ∀ c ∈ inside, c ≠ first)
    (rest : List Char) :
    Text.after? (first :: mark) (inside ++ rest) = Text.after? (first :: mark) rest := by
  induction inside with
  | nil => rfl
  | cons c inside ih =>
      rw [List.forall_mem_cons] at h
      rw [List.cons_append, Text.after?, if_neg, ih h.2]
      simp [h.1.symm]

/-- A comment goes on to the first mark that ends one. -/
theorem CommentBody.after?_eq {body : List Char} (h : CommentBody body) (rest : List Char) :
    Text.after? ['-', '-', '>'] (body ++ '-' :: '-' :: '>' :: rest) = some rest := by
  induction h with
  | nil => rfl
  | @plain c body hc _ ih =>
      have hskip := @after?_append '-' ['-', '>'] [c] (List.forall_mem_singleton.mpr hc)
      exact (hskip _).trans ih
  | @hyphen c body hc _ ih =>
      -- The hyphen does not begin the mark, and what comes behind it cannot.
      have hskip := @after?_append '-' ['-', '>'] [c] (List.forall_mem_singleton.mpr hc)
      rw [List.cons_append, Text.after?, if_neg]
      · exact (hskip _).trans ih
      · simp [hc.symm]

/-- A comment is passed over. -/
theorem markup_comment {body : List Char} (h : CommentBody body) (rest : List Char) :
    markup ('<' :: '!' :: '-' :: '-' :: (body ++ '-' :: '-' :: '>' :: rest)) = markup rest := by
  refine markup_declaration ?_
  rw [afterDeclaration, h.after?_eq]
  rfl

/-- What may stand between elements has no tags. -/
theorem markup_gap {gap : List Char} (h : Gap gap) (rest : List Char) :
    markup (gap ++ rest) = markup rest := by
  induction h with
  | nil => rfl
  | blank hblank _ ih => rw [List.cons_append, markup_blank hblank, ih]
  | @comment body gap hbody _ ih =>
      have hcomment := markup_comment hbody (gap ++ rest)
      rw [ih] at hcomment
      simpa only [List.cons_append, List.append_assoc] using hcomment

/-- Neither has what may stand in front of them all. -/
theorem markup_prolog {prolog : List Char} (h : Prolog prolog) (rest : List Char) :
    markup (prolog ++ rest) = markup rest := by
  cases h with
  | none => rfl
  | @declaration inside hinside =>
      have hword : ∀ c ∈ ['x', 'm', 'l'], c ≠ '?' := by
        simp
      -- No question mark stands in the declaration before the one at its end.
      have hskip := @after?_append '?' ['>'] (['x', 'm', 'l'] ++ inside)
        (List.forall_mem_append.mpr ⟨hword, hinside⟩) ('?' :: '>' :: rest)
      have hafter : afterInstruction ('x' :: 'm' :: 'l' :: (inside ++ '?' :: '>' :: rest)) =
          .ok rest := by
        simp only [List.cons_append, List.nil_append] at hskip
        rw [afterInstruction, if_neg (by simp), hskip]
        rfl
      rw [← markup_instruction hafter]
      simp only [List.cons_append, List.append_assoc, List.nil_append]

/-! ## Elements -/

/-- The elements have what the nodes have, each of them under a tag of its own,
    and all of them ended as they should. -/
inductive Conveys : List Node → List Element → Prop where
  | nil : Conveys [] []
  | empty {name : String} {attributes : List (String × String)} {tag : Tag} {nodes : List Node}
      {elements : List Element} :
    tag.Has name attributes → Conveys nodes elements →
    Conveys (.element name attributes [] :: nodes) (.empty tag :: elements)
  | node {name : String} {attributes : List (String × String)} {children : List Node} {tag : Tag}
      {inside : List Element} {nodes : List Node} {elements : List Element} :
    tag.Has name attributes → Conveys children inside → Conveys nodes elements →
    Conveys (.element name attributes children :: nodes) (.node tag inside .closed :: elements)

namespace Assembly

/-- Take in several finished elements. -/
def addAll (elements : List Element) (a : Assembly) : Assembly :=
  elements.foldl (fun a e => a.add e) a

/-- They all go into the innermost open element. -/
theorem addAll_inside (elements : List Element) (o : OpenElement) (outer : List OpenElement)
    (finished : List Element) :
    addAll elements ⟨o :: outer, finished⟩ =
      ⟨⟨o.tag, elements.reverse ++ o.children⟩ :: outer, finished⟩ := by
  induction elements generalizing o with
  | nil => rfl
  | cons e elements ih =>
      rw [addAll, List.foldl_cons, ← addAll, add, ih, List.reverse_cons, List.append_assoc]
      rfl

/-- With no element open they are outside all others. -/
theorem addAll_outside (elements finished : List Element) :
    addAll elements ⟨[], finished⟩ = ⟨[], elements.reverse ++ finished⟩ := by
  induction elements generalizing finished with
  | nil => rfl
  | cons e elements ih =>
      rw [addAll, List.foldl_cons, ← addAll, add, ih, List.reverse_cons, List.append_assoc]
      rfl

end Assembly

/-- Between its tags an element gathers what stands there, and its end tag makes
    it one of the elements of what is open around it. -/
theorem assemble_close {tag : Tag} {name : String} (hname : tag.name = name)
    (inside : List Element) (a : Assembly) (rest : List Markup) :
    assemble (Assembly.addAll inside ⟨⟨tag, []⟩ :: a.inside, a.finished⟩) (.close name :: rest) =
      assemble (a.add (.node tag inside .closed)) rest := by
  rw [Assembly.addAll_inside, assemble]
  simp only [hname, if_true]
  rw [OpenElement.close, List.append_nil, List.reverse_reverse]

/-- The text of some nodes adds their elements to what has been read. -/
theorem Written.assemble_eq {nodes : List Node} {text : List Char} (h : Written nodes text) :
    ∃ elements, Conveys nodes elements ∧ ∀ (a : Assembly) (rest : List Char),
      assemble a (markup (text ++ rest)) = assemble (a.addAll elements) (markup rest) := by
  induction h with
  | nil hgap =>
      refine ⟨[], .nil, fun a rest => ?_⟩
      rw [markup_gap hgap]
      rfl
  | @empty gap tag text name attributes nodes hgap htag _ ih =>
      obtain ⟨elements, hconveys, hrest⟩ := ih
      -- One tag opens nothing, so its element goes straight to what is open around it.
      refine ⟨_, .empty htag.has hconveys, fun a rest => ?_⟩
      simp only [List.append_assoc, List.cons_append]
      rw [markup_gap hgap, htag.markup_empty, assemble, hrest]
      rfl
  | @node gap tag inside blanks text name attributes children nodes hgap htag _ hblanks _ ih ih' =>
      obtain ⟨contents, hcontents, hinside⟩ := ih
      obtain ⟨elements, hconveys, hrest⟩ := ih'
      have hname : isName name = true := by
        obtain ⟨hname, -, -, -⟩ := htag
        exact hname
      refine ⟨_, .node htag.has hcontents hconveys, fun a rest => ?_⟩
      simp only [List.append_assoc, List.cons_append]
      -- The start tag opens the element, its contents are added inside, and the
      -- end tag closes it.
      rw [markup_gap hgap, htag.markup_start, assemble, hinside, markup_close hname hblanks,
        assemble_close htag.has.name_eq, hrest]
      rfl

/-- The mark in front of a text is none of what may stand between elements. -/
theorem Gap.head?_ne {gap : List Char} (h : Gap gap) {rest : List Char}
    (hrest : ∀ c ∈ rest.head?, c ≠ byteOrderMark) :
    ∀ c ∈ (gap ++ rest).head?, c ≠ byteOrderMark := by
  cases h with
  | nil => exact hrest
  | blank hblank _ =>
      rintro _ ⟨⟩ rfl
      exact absurd hblank (by decide)
  | comment _ _ =>
      rintro _ ⟨⟩
      decide

theorem Written.head?_ne {nodes : List Node} {text : List Char} (h : Written nodes text) :
    ∀ c ∈ text.head?, c ≠ byteOrderMark := by
  have htag : ∀ {rest : List Char}, ∀ c ∈ ('<' :: rest).head?, c ≠ byteOrderMark := by
    rintro _ _ ⟨⟩
    decide
  cases h with
  | @nil gap hgap => simpa using hgap.head?_ne fun c (hc : c ∈ ([] : List Char).head?) => nomatch hc
  | empty hgap _ _ => exact hgap.head?_ne htag
  | node hgap _ _ _ _ => exact hgap.head?_ne htag

theorem skipByteOrderMark_of_head {text : List Char} (h : ∀ c ∈ text.head?, c ≠ byteOrderMark) :
    skipByteOrderMark text = text := by
  cases text with
  | nil => rfl
  | cons c rest => rw [skipByteOrderMark, if_neg (h c rfl)]

/-- The elements of the text of some nodes are those of the nodes, and nothing
    is wrong with the text. -/
theorem Written.ofText_eq {nodes : List Node} {prolog text : List Char} (h : Written nodes text)
    (hprolog : Prolog prolog) {document : String} (hdocument : document.toList = prolog ++ text) :
    ∃ elements, Conveys nodes elements ∧
      Document.ofText document = ⟨elements, .endOfText⟩ := by
  obtain ⟨elements, hconveys, hread⟩ := h.assemble_eq
  have hfirst : ∀ c ∈ (prolog ++ text).head?, c ≠ byteOrderMark := by
    cases hprolog with
    | none => exact h.head?_ne
    | declaration _ =>
        rintro _ ⟨⟩
        decide
  refine ⟨elements, hconveys, ?_⟩
  -- Read from the start, with no element open and nothing behind the text.
  have hread := hread ⟨[], []⟩ []
  rw [List.append_nil] at hread
  rw [Document.ofText, hdocument, skipByteOrderMark_of_head hfirst, markup_prolog hprolog, hread,
    Assembly.addAll_outside, markup, assemble, Assembly.stop]
  simp [Assembly.nest]

end Xml

end FunctionalOptions
