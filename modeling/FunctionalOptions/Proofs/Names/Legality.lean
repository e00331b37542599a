import FunctionalOptions.Proofs.Conversion.Records
import FunctionalOptions.Proofs.Grammar.Token
import FunctionalOptions.Proofs.Names.Letters
import FunctionalOptions.Proofs.Options.Generate

/-!
# Names of the Language

Which of the names that validation lets through are names of the language. Validation
asks whether a text looks like a name, and this is not quite the same. Keywords look
like names, the blank name does and cannot be referred to, and what validation takes
for letters and digits is more than what the language does.

Nothing else stands between the two. No name of the language is refused. Of a text
that is let through, only characters beyond ASCII need to be looked at, and nothing
has to be asked about the first character in particular.

## Main definitions

* `Go.isLegalName`: The text is a name of the language.
* `Go.isReferable`: Something can be referred to by the name.
* `Go.Lettered`: What is beyond ASCII in a text are letters and digits.
* `Record.Mentions`: A name occurs in the type of a field.

## Theorems

* `Go.isLegalName_iff`: How names of the language differ from identifiers.
* `Descriptor.Document.names_legal_iff`: Which names of a record are names of the
  language.
* `Descriptor.Document.names_not_legal`: Not all of them are.
-/

namespace FunctionalOptions

namespace Go

/-- The character can begin a name of the language. -/
def isWordStart (c : Char) : Bool :=
  Unicode.isLetter c || c = '_'

/-- The character can stand in a name of the language. -/
def isWordPart (c : Char) : Bool :=
  isWordStart c || Unicode.isDigit c

/-- The text is a name of the language: a letter or an underscore, followed by letters,
    digits and underscores, and no keyword. -/
def isLegalName (text : String) : Bool :=
  match text.toList with
  | [] => false
  | c :: rest => isWordStart c && rest.all isWordPart && !isKeyword text

/-- Something can be referred to by the name, since it is not blank. -/
def isReferable (text : String) : Bool :=
  isLegalName text && text != blank

/-- The characters beyond ASCII are letters and digits. -/
def Lettered (text : String) : Prop :=
  ∀ c ∈ text.toList, 128 ≤ c.toNat → isWordPart c = true

instance (text : String) : Decidable (Lettered text) :=
  List.decidableBAll (fun c : Char => 128 ≤ c.toNat → isWordPart c = true) text.toList

variable {text : String} {c : Char}

theorem isWordStart_ascii (hc : c.toNat < 128) : isWordStart c = (c.isAlpha || c = '_') := by
  rw [isWordStart, Unicode.isLetter_ascii hc]

theorem isWordPart_ascii (hc : c.toNat < 128) :
    isWordPart c = (c.isAlpha || c = '_' || c.isDigit) := by
  rw [isWordPart, isWordStart_ascii hc, Unicode.isDigit_ascii hc]

theorem isNameStart_of_isWordStart (h : isWordStart c = true) : isNameStart c = true := by
  rw [isWordStart, Bool.or_eq_true] at h
  rw [isNameStart, Bool.or_eq_true]
  exact h.imp_left Unicode.isAlphabetic_of_isLetter

theorem isNamePart_of_isWordPart (h : isWordPart c = true) : isNamePart c = true := by
  rw [isWordPart, isWordStart, Bool.or_eq_true, Bool.or_eq_true] at h
  rw [isNamePart, Bool.or_eq_true, Bool.or_eq_true]
  rcases h with (hletter | hline) | hdigit
  · exact Or.inl (Or.inl (Unicode.isAlphabetic_of_isLetter hletter))
  · exact Or.inr hline
  · exact Or.inl (Or.inr (Unicode.isNumeric_of_isDigit hdigit))

/-- In ASCII there is no difference. -/
theorem isWordPart_of_isNamePart (h : isNamePart c = true) (hc : c.toNat < 128) :
    isWordPart c = true := by
  rw [isNamePart, Bool.or_eq_true, Bool.or_eq_true] at h
  rw [isWordPart, isWordStart, Bool.or_eq_true, Bool.or_eq_true]
  rcases h with (hletter | hdigit) | hline
  · exact Or.inl (Or.inl (Unicode.isLetter_of_isAlphabetic hletter hc))
  · exact Or.inr (Unicode.isDigit_of_isNumeric hdigit hc)
  · exact Or.inl (Or.inr hline)

/-- What begins a name and can stand in a word can begin a word, since no digit is
    alphabetic. -/
theorem isWordStart_of_isNameStart (h : isNameStart c = true) (hc : isWordPart c = true) :
    isWordStart c = true := by
  rw [isWordPart, Bool.or_eq_true] at hc
  -- What can stand in a word but not begin it is a digit.
  refine hc.resolve_right fun hdigit => ?_
  rw [isNameStart, Unicode.not_isAlphabetic_of_isDigit hdigit, Bool.false_or,
    decide_eq_true_eq] at h
  rw [h, Unicode.isDigit_ascii (by decide)] at hdigit
  exact absurd hdigit (by decide)

/-- A name of the language is an identifier that is no keyword and in which all
    characters beyond ASCII are letters and digits. -/
theorem isLegalName_iff (text : String) :
    isLegalName text = true ↔
      isIdentifier text = true ∧ isKeyword text = false ∧ Lettered text := by
  unfold isLegalName Lettered
  constructor
  · intro h
    -- Without a character it is neither.
    cases htext : text.toList with
    | nil =>
        rw [htext] at h
        exact absurd h Bool.false_ne_true
    | cons c rest =>
        simp only [htext, Bool.and_eq_true, Bool.not_eq_true', List.all_eq_true] at h
        rcases h with ⟨⟨hstart, hrest⟩, hkeyword⟩
        have hpart : isWordPart c = true := by
          rw [isWordPart, hstart, Bool.true_or]
        refine ⟨?_, hkeyword, fun d hd _ => ?_⟩
        · simp only [isIdentifier, htext, Bool.and_eq_true, List.all_eq_true]
          exact ⟨isNameStart_of_isWordStart hstart,
            fun d hd => isNamePart_of_isWordPart (hrest d hd)⟩
        · rcases List.mem_cons.mp hd with rfl | hd
          · exact hpart
          · exact hrest d hd
  · rintro ⟨hidentifier, hkeyword, hbeyond⟩
    rcases word_of_isIdentifier hidentifier with ⟨c, rest, htext, hstart, hparts⟩
    have hword : ∀ d ∈ c :: rest, isWordPart d = true := by
      intro d hd
      -- Up to ASCII both accept the same characters. Beyond it they need not.
      rcases Nat.lt_or_ge d.toNat 128 with hascii | hascii
      · exact isWordPart_of_isNamePart (hparts d hd) hascii
      · exact hbeyond d (htext ▸ hd) hascii
    rcases List.forall_mem_cons.mp hword with ⟨hfirst, hrest⟩
    simp only [htext, Bool.and_eq_true, Bool.not_eq_true', List.all_eq_true]
    exact ⟨⟨isWordStart_of_isNameStart hstart hfirst, hrest⟩, hkeyword⟩

/-- For an identifier it remains to be asked about keywords and about characters. -/
theorem isLegalName_iff_of_isIdentifier (h : isIdentifier text = true) :
    isLegalName text = true ↔ isKeyword text = false ∧ Lettered text := by
  rw [isLegalName_iff, and_iff_right h]

theorem isReferable_iff_of_isIdentifier (h : isIdentifier text = true) :
    isReferable text = true ↔ isKeyword text = false ∧ Lettered text ∧ text ≠ "_" := by
  rw [isReferable, Bool.and_eq_true, isLegalName_iff_of_isIdentifier h, bne_iff_ne, blank,
    and_assoc]

/-- A word of letters and digits in ASCII can be referred to unless it is a keyword. -/
theorem isReferable_of_ascii (hfirst : text.toList.head?.any Char.isAlpha = true)
    (hascii : text.toList.all (fun d => d.toNat < 128 && d.isAlphanum) = true)
    (hkeyword : isKeyword text = false) : isReferable text = true := by
  -- The blank name does not begin with a letter of ASCII.
  have hblank : text ≠ blank := by
    rintro rfl
    exact absurd hfirst (by decide)
  cases htext : text.toList with
  | nil =>
      rw [htext] at hfirst
      exact absurd hfirst Bool.false_ne_true
  | cons c more =>
      simp only [htext, List.all_cons, Bool.and_eq_true, decide_eq_true_eq] at hascii
      have hstart : isWordStart c = true := by
        rw [htext] at hfirst
        rw [isWordStart_ascii hascii.1.1, show c.isAlpha = true from hfirst, Bool.true_or]
      have hparts : more.all isWordPart = true := by
        refine List.all_eq_true.mpr fun d hd => ?_
        have hd := List.all_eq_true.mp hascii.2 d hd
        rw [Bool.and_eq_true, decide_eq_true_eq] at hd
        rw [isWordPart_ascii hd.1, Bool.or_right_comm]
        exact Bool.or_eq_true_iff.mpr (Or.inl hd.2)
      simp only [isReferable, isLegalName, htext, hstart, hparts, hkeyword, Bool.true_and,
        Bool.not_false, bne_iff_ne]
      exact hblank

end Go

namespace Record

open Go (TypeExpr)

/-- The text occurs in the type of a field, at whatever depth, as a declared name or as
    the short name of its package. -/
def Mentions (record : Record) (text : String) : Prop :=
  ∃ field ∈ record.fields, ∃ package name, TypeExpr.Within (.named package name) field.type ∧
    (text = name ∨ ∃ p ∈ package, text = p.name)

variable {record : Record} {text : String}

/-- All names that occur in the fields of a valid record are identifiers. -/
theorem isIdentifier_of_mentions (hvalid : record.validate = .ok ()) (h : record.Mentions text) :
    Go.isIdentifier text = true := by
  rcases h with ⟨field, hfield, package, name, hwithin, htext⟩
  have htype : field.type.Valid := (((validate_eq_ok_iff record).mp hvalid).2.1 field hfield).2
  rcases htype _ hwithin with ⟨hname, hpackage⟩
  rcases htext with rfl | ⟨p, hp, rfl⟩
  · exact hname
  · exact hpackage p hp

/-- Every field of a converted record has a type that has been converted. -/
theorem exists_shape_of_mem {descriptor : Descriptor.Record}
    (h : (ofDescriptor descriptor).result = .ok record) {field : Field}
    (hfield : field ∈ record.fields) :
    ∃ path shape, TypeExpr.ofShape path shape = .ok field.type := by
  have hfields := ((ofDescriptor_eq_ok_iff ..).mp h).2
  rcases List.mem_iff_getElem.mp hfield with ⟨i, hi, rfl⟩
  exact ⟨_, _, (hfields.get (hfields.length_eq ▸ hi) hi).type⟩

/-- The names in the fields of a converted record that the language declares can be
    referred to, but for the two that stand for literals. -/
theorem isReferable_of_predeclared {descriptor : Descriptor.Record}
    (h : (ofDescriptor descriptor).result = .ok record) {field : Field}
    (hfield : field ∈ record.fields)
    (htext : TypeExpr.Within (.predeclared text) field.type) :
    Go.isReferable text = true ∨ text ∈ ["interface\x7b\x7d", "struct\x7b\x7d"] := by
  -- The name has come from a shape, and which names do is known.
  rcases exists_shape_of_mem h hfield with ⟨path, shape, hshape⟩
  rcases TypeExpr.exists_beside hshape htext with ⟨s, hs⟩
  rcases TypeExpr.predeclared_of_ofShape (hs.ofShape_eq_ok hshape) with hname | rfl | hliteral
  · -- The names of basic types make a table, of which every entry is in order.
    have htable : ("any" :: Go.byteAlias :: Go.runeAlias :: Go.primitiveKinds).all (fun name =>
        name.toList.head?.any Char.isAlpha && !Go.isKeyword name &&
          name.toList.all fun d => d.toNat < 128 && d.isAlphanum) = true := by
      decide
    have hmem : text ∈ "any" :: Go.byteAlias :: Go.runeAlias :: Go.primitiveKinds := by
      simp only [Go.isPredeclared, Bool.or_eq_true, decide_eq_true_eq,
        List.contains_iff_mem] at hname
      simp only [List.mem_cons]
      rcases hname with ((hbyte | hrune) | hkind) | hany
      · exact Or.inr (Or.inl hbyte)
      · exact Or.inr (Or.inr (Or.inl hrune))
      · exact Or.inr (Or.inr (Or.inr hkind))
      · exact Or.inl hany
    have hentry := List.all_eq_true.mp htable text hmem
    simp only [Bool.and_eq_true, Bool.not_eq_true'] at hentry
    exact Or.inl (Go.isReferable_of_ascii hentry.1.1 hentry.2 hentry.1.2)
  · exact Or.inl (Go.isReferable_of_ascii (by decide) (by decide) (by decide))
  · exact Or.inr hliteral

end Record

namespace Descriptor

namespace Document

variable {document : Document} {name : String} {package : Go.Package}
  {record : FunctionalOptions.Record}

/-- The names that come with a record that has been loaded are identifiers. The name of
    the record is a name of the language exactly if it is no keyword and what is beyond
    ASCII in it are letters and digits. The short name of the package, and every declared
    name and short name in the type of a field, can be referred to exactly if besides
    they are not blank. The other names in types are those that the language declares,
    which are in order. -/
theorem names_legal_iff (hload : (document.load name).result = .ok (package, record)) :
    Go.isIdentifier record.name = true ∧
    (Go.isLegalName record.name = true ↔
      Go.isKeyword record.name = false ∧ Go.Lettered record.name) ∧
    (∀ text, text = package.name ∨ record.Mentions text →
      Go.isIdentifier text = true ∧
      (Go.isReferable text = true ↔
        Go.isKeyword text = false ∧ Go.Lettered text ∧ text ≠ "_")) ∧
    ∀ field ∈ record.fields, ∀ text, Go.TypeExpr.Within (.predeclared text) field.type →
      Go.isReferable text = true ∨ text ∈ ["interface\x7b\x7d", "struct\x7b\x7d"] := by
  rcases (load_eq_ok_iff ..).mp hload with ⟨hpackage, ⟨descriptor, -, hrecord⟩, hvalid, rfl⟩
  have hname : Go.isIdentifier record.name = true :=
    ((Record.validate_eq_ok_iff record).mp hvalid).1
  have hnames : ∀ text, text = document.origin.name ∨ record.Mentions text →
      Go.isIdentifier text = true := by
    rintro text (rfl | hmentions)
    · exact hpackage
    · exact Record.isIdentifier_of_mentions hvalid hmentions
  refine ⟨hname, Go.isLegalName_iff_of_isIdentifier hname,
    fun text htext => ⟨hnames text htext, ?_⟩, fun field hfield text => ?_⟩
  · exact Go.isReferable_iff_of_isIdentifier (hnames text htext)
  · exact Record.isReferable_of_predeclared hrecord hfield

/-- A record with a field of a type of another package. -/
def router : Document :=
  ⟨⟨"example.com/store", none⟩, [⟨"Router", [⟨"Handlers",
    .map (.basic "string") (.pointer (.named (some ⟨"example.com/größe", none⟩) "Maß")), none⟩]⟩]⟩

theorem names_legal_router :
    ∃ package record, (router.load "Router").result = .ok (package, record) ∧
      Go.isLegalName record.name = true ∧ Go.isReferable package.name = true ∧
      Go.isReferable "größe" = true ∧ Go.isReferable "Maß" = true := by
  have hload : (router.load "Router").result = .ok (⟨"example.com/store", "store"⟩, ⟨"Router",
      [⟨"Handlers", .map (.predeclared "string") (.pointer (.named
        (some ⟨"example.com/größe", "größe"⟩) "Maß")), false⟩]⟩) :=
    (load_eq_ok_iff ..).mpr ⟨by decide, ⟨_, rfl, rfl⟩, by decide, rfl⟩
  rcases names_legal_iff hload with ⟨-, hrecord, hnames, -⟩
  have hwithin : Go.TypeExpr.Within (.named (some ⟨"example.com/größe", "größe"⟩) "Maß")
      (.map (.predeclared "string") (.pointer (.named (some ⟨"example.com/größe", "größe"⟩)
        "Maß"))) :=
    .value (.pointer .self)
  have htype := hnames "Maß" (Or.inr ⟨_, List.mem_cons_self, _, _, hwithin, Or.inl rfl⟩)
  have hshort := hnames "größe" (Or.inr ⟨_, List.mem_cons_self, _, _, hwithin,
    Or.inr ⟨_, rfl, rfl⟩⟩)
  exact ⟨_, _, hload, hrecord.mpr (by decide),
    (hnames "store" (Or.inl rfl)).2.mpr (by decide),
    hshort.2.mpr (by decide), htype.2.mpr (by decide)⟩

/-- A record that is called like a keyword, as its package is, with fields of a type that
    is blank and of one with a superscript in its name. -/
def crossings : Document :=
  ⟨⟨"example.com/go", none⟩, [⟨"type", [⟨"Origin", .slice (.named none "_"), none⟩,
    ⟨"Target", .pointer (.named none "x²"), none⟩]⟩]⟩

/-- Keywords, the blank name and characters that are neither letters nor digits get
    through. -/
theorem names_not_legal :
    ∃ package record, (crossings.load "type").result = .ok (package, record) ∧
      Go.isLegalName package.name = false ∧ Go.isLegalName record.name = false ∧
      (record.Mentions "_" ∧ Go.isReferable "_" = false) ∧
      record.Mentions "x²" ∧ Go.isLegalName "x²" = false := by
  have hload : (crossings.load "type").result = .ok (⟨"example.com/go", "go"⟩, ⟨"type",
      [⟨"Origin", .slice (.named none "_"), false⟩,
        ⟨"Target", .pointer (.named none "x²"), false⟩]⟩) :=
    (load_eq_ok_iff ..).mpr ⟨by decide, ⟨_, rfl, rfl⟩, by decide +kernel, rfl⟩
  refine ⟨_, _, hload, by decide, by decide, ⟨?_, by decide +kernel⟩, ?_,
    by decide +kernel⟩
  · exact ⟨_, List.mem_cons_self, none, "_", .slice .self, Or.inl rfl⟩
  · exact ⟨_, List.mem_cons_of_mem _ List.mem_cons_self, none, "x²", .pointer .self, Or.inl rfl⟩

end Document

end Descriptor

end FunctionalOptions
