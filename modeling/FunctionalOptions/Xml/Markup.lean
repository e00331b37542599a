import FunctionalOptions.Xml.Fault
import FunctionalOptions.Xml.Tag

/-!
# Markup

A text as the list of its tags. Everything between tags is passed over: plain
text, comments, character data sections, processing instructions and the
document type, whose internal subset has markup of its own that must not be
taken for tags of the document. Nothing is passed over unread, since each of
them can be left unfinished.

Whether the tags fit together is no question of this list. It ends at the
first fault of the markup itself.

## Main definitions

* `Markup`: A tag, or the fault that ends the list.
* `markup`: The markup of a text.
-/

namespace FunctionalOptions

namespace Xml

/-- A tag of a text. The last one stands for the rest of a text that cannot be
    read. -/
inductive Markup where
  /-- `<name …>` -/
  | start (tag : Tag)
  /-- `<name …/>` -/
  | empty (tag : Tag)
  /-- `</name>` -/
  | close (name : String)
  | broken (fault : Fault)
deriving DecidableEq, Repr

/-- The quote that the text behind a character is inside, given the one that
    the character is inside. -/
def quoteAfter (quote : Option Char) (c : Char) : Option Char :=
  match quote with
  | none => if isQuote c then some c else none
  | some q => if c = q then none else some q

/-- The text of a tag up to the bracket that ends it, and what follows. A
    bracket inside a quoted value ends nothing. -/
def scanTag (quote : Option Char) : List Char → Except Fault (List Char × List Char)
  | [] => .error (match quote with
    | none => .tagNotClosed
    | some q => .valueNotClosed q)
  | c :: rest =>
    if quote = none ∧ c = '>' then .ok ([], rest)
    else
      match scanTag (quoteAfter quote c) rest with
      | .ok (text, after) => .ok (c :: text, after)
      | .error fault => .error fault

/-- The text of a tag, its bracket and what follows make up the text. -/
theorem scanTag_append {quote : Option Char} {text tag after : List Char}
    (h : scanTag quote text = .ok (tag, after)) : text = tag ++ '>' :: after := by
  induction text generalizing quote tag with
  | nil => simp [scanTag] at h
  | cons c rest ih =>
    unfold scanTag at h
    split at h
    · next hc =>
      simp only [Except.ok.injEq, Prod.mk.injEq] at h
      obtain ⟨rfl, rfl⟩ := h
      rw [hc.2, List.nil_append]
    · split at h
      · next htag =>
        simp only [Except.ok.injEq, Prod.mk.injEq] at h
        obtain ⟨rfl, rfl⟩ := h
        rw [ih htag, List.cons_append]
      · simp at h

/-- A place inside a document type declaration. -/
inductive DoctypePlace where
  /-- Before the internal subset, with the quote it is inside. -/
  | head (quote : Option Char)
  /-- The internal subset, between square brackets. -/
  | subset
  /-- A declaration of the internal subset that has quoted values, with the
      quote it is inside. -/
  | declaration (quote : Option Char)
  /-- Any other markup of the internal subset. -/
  | plain
  | comment
  | instruction
  /-- Behind the internal subset. -/
  | tail
deriving DecidableEq, Repr

/-- The declarations of an internal subset that have quoted values. -/
def quotedDeclarations : List (List Char) :=
  [['!', 'E', 'N', 'T', 'I', 'T', 'Y'],
   ['!', 'A', 'T', 'T', 'L', 'I', 'S', 'T'],
   ['!', 'N', 'O', 'T', 'A', 'T', 'I', 'O', 'N']]

/-- The place that an angle bracket of the internal subset leads to, given what
    follows it and unless that makes it a comment or an instruction. Element
    declarations have no quoted values, and what is no declaration at all is
    passed over like one of them. -/
def subsetPlace (text : List Char) : DoctypePlace :=
  if quotedDeclarations.any (·.isPrefixOf text) then .declaration none else .plain

/-- What follows a document type declaration, from a place inside it. Quotes
    protect the brackets between them before the internal subset and in some of
    its declarations, but nowhere else. -/
def afterDoctype : DoctypePlace → List Char → Option (List Char)
  | _, [] => none
  | .head quote, c :: rest =>
    if quote = none ∧ c = '>' then some rest
    else if quote = none ∧ c = '[' then afterDoctype .subset rest
    else afterDoctype (.head (quoteAfter quote c)) rest
  | .subset, '<' :: '!' :: '-' :: '-' :: rest => afterDoctype .comment rest
  | .subset, '<' :: '?' :: rest => afterDoctype .instruction rest
  | .subset, c :: rest =>
    if c = ']' then afterDoctype .tail rest
    else if c = '<' then afterDoctype (subsetPlace rest) rest
    else afterDoctype .subset rest
  | .declaration quote, c :: rest =>
    if quote = none ∧ c = '>' then afterDoctype .subset rest
    else afterDoctype (.declaration (quoteAfter quote c)) rest
  | .plain, c :: rest => afterDoctype (if c = '>' then .subset else .plain) rest
  | .comment, '-' :: '-' :: '>' :: rest => afterDoctype .subset rest
  | .comment, _ :: rest => afterDoctype .comment rest
  | .instruction, '?' :: '>' :: rest => afterDoctype .subset rest
  | .instruction, _ :: rest => afterDoctype .instruction rest
  | .tail, c :: rest => if c = '>' then some rest else afterDoctype .tail rest

theorem afterDoctype_length {place : DoctypePlace} {text rest : List Char}
    (h : afterDoctype place text = some rest) : rest.length < text.length := by
  fun_induction afterDoctype place text <;>
    first
    | contradiction
    | (simp only [Option.some.injEq] at h
       simp only [h, List.length_cons]
       omega)
    | (rename_i ih
       have := ih h
       simp only [List.length_cons]
       omega)

/-- The text begins with the word `DOCTYPE`, in capitals or small letters. -/
def startsDoctype (text : List Char) : Bool :=
  (text.take 7).map Char.toLower = ['d', 'o', 'c', 't', 'y', 'p', 'e']

/-- What follows markup that begins with `<!`, given what follows that. -/
def afterDeclaration (text : List Char) : Except Fault (List Char) :=
  match text with
  | '-' :: '-' :: rest => (Text.after? ['-', '-', '>'] rest).elim (.error .commentNotClosed) .ok
  | '-' :: _ => .error .commentNotClosed
  | '[' :: rest =>
    if ['C', 'D', 'A', 'T', 'A', '['].isPrefixOf rest then
      (Text.after? [']', ']', '>'] rest).elim (.error .cdataNotClosed) .ok
    else .error .cdataNotClosed
  | c :: rest =>
    if c = 'D' ∨ c = 'd' then
      match afterDoctype (.head none) rest with
      | none => .error .doctypeNotClosed
      | some after =>
        if !startsDoctype text then .error .doctypeNotClosed
        else if ((text.drop 7).dropWhile Text.isBlank).head? = some '>' then
          .error .doctypeUnnamed
        else .ok after
    else .error .unknownMarkup
  | [] => .error .unknownMarkup

/-- The text of a processing instruction is that of an XML declaration. -/
def startsXmlDeclaration : List Char → Bool
  | 'x' :: 'm' :: 'l' :: rest =>
    match rest with
    | [] => true
    | c :: _ => c = '?' || Text.isBlank c
  | _ => false

/-- What follows markup that begins with `<?`, given what follows that. The
    question mark cannot begin the instruction and end it too, and `<?>` is
    taken for an attempt at that, whatever comes after it. -/
def afterInstruction (text : List Char) : Except Fault (List Char) :=
  if text.head? = some '>' then .error .instructionNotClosed
  else
    match Text.after? ['?', '>'] text with
    | some rest => .ok rest
    | none =>
      .error (if startsXmlDeclaration text then .declarationNotClosed else .instructionNotClosed)

/-- What follows a reference in plain text, given what follows its ampersand.
    It has to be ended before the text or another reference is. -/
def afterReference (text : List Char) : Except Fault (List Char) :=
  match text.dropWhile fun c => c != ';' && c != '&' && c != '<' with
  | ';' :: rest => .ok rest
  | _ => .error .referenceNotClosed

theorem afterDeclaration_length {text rest : List Char} (h : afterDeclaration text = .ok rest) :
    rest.length ≤ text.length := by
  unfold afterDeclaration at h
  split at h
  · next body =>
    cases hafter : Text.after? ['-', '-', '>'] body with
    | none => simp [hafter] at h
    | some r =>
      simp only [hafter, Option.elim_some, Except.ok.injEq] at h
      have := Text.after?_length hafter
      simp only [← h, List.length_cons]
      omega
  · simp at h
  · next body =>
    split at h
    · cases hafter : Text.after? [']', ']', '>'] body with
      | none => simp [hafter] at h
      | some r =>
        simp only [hafter, Option.elim_some, Except.ok.injEq] at h
        have := Text.after?_length hafter
        simp only [← h, List.length_cons]
        omega
    · simp at h
  · split at h
    · split at h
      · simp at h
      · next hafter =>
        have := afterDoctype_length hafter
        split at h
        · simp at h
        · split at h
          · simp at h
          · simp only [Except.ok.injEq] at h
            simp only [← h, List.length_cons]
            omega
    · simp at h
  · simp at h

theorem afterInstruction_length {text rest : List Char} (h : afterInstruction text = .ok rest) :
    rest.length ≤ text.length := by
  unfold afterInstruction at h
  split at h
  · simp at h
  · split at h
    · next hafter =>
      simp only [Except.ok.injEq] at h
      exact h ▸ Text.after?_length hafter
    · simp at h

theorem afterReference_length {text rest : List Char} (h : afterReference text = .ok rest) :
    rest.length ≤ text.length := by
  unfold afterReference at h
  split at h
  · next hafter =>
    simp only [Except.ok.injEq] at h
    have hlen := congrArg List.length hafter
    have hsub := (List.dropWhile_sublist (l := text)
      fun c => c != ';' && c != '&' && c != '<').length_le
    simp only [List.length_cons] at hlen
    rw [← h]
    omega
  · simp at h

/-- The text without the blanks at its end, unless it is all blanks. -/
def trimName (text : List Char) : List Char :=
  if text.all Text.isBlank then text else (text.reverse.dropWhile Text.isBlank).reverse

/-- The tag with the given text between its angle brackets. -/
def tagMarkup (text : List Char) : Markup :=
  match text with
  | '/' :: name => .close (String.ofList (trimName name))
  | _ =>
    if text.getLast? = some '/' then .empty (.ofText text.dropLast)
    else .start (.ofText text)

/-- The markup of a text. -/
def markup (text : List Char) : List Markup :=
  match text with
  | [] => []
  | '&' :: rest =>
    match _h : afterReference rest with
    | .ok after => markup after
    | .error fault => [.broken fault]
  | '<' :: '!' :: rest =>
    match _h : afterDeclaration rest with
    | .ok after => markup after
    | .error fault => [.broken fault]
  | '<' :: '?' :: rest =>
    match _h : afterInstruction rest with
    | .ok after => markup after
    | .error fault => [.broken fault]
  | '<' :: rest =>
    match _h : scanTag none rest with
    | .ok (tag, after) => tagMarkup tag :: markup after
    | .error fault => [.broken fault]
  | _ :: rest => markup rest
termination_by text.length
decreasing_by
  · have := afterReference_length _h
    simp only [List.length_cons]
    omega
  · have := afterDeclaration_length _h
    simp only [List.length_cons]
    omega
  · have := afterInstruction_length _h
    simp only [List.length_cons]
    omega
  · have := congrArg List.length (scanTag_append _h)
    simp only [List.length_append, List.length_cons] at this ⊢
    omega
  · simp only [List.length_cons]
    omega

end Xml

end FunctionalOptions
