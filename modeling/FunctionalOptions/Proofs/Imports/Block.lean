import FunctionalOptions.Proofs.Imports.Exactness
import FunctionalOptions.Proofs.Imports.Source

/-!
# The Import Block Read Back

Whether the import block of a generated file says what it is meant to say. A line has
the path of a package between quotes, as it is, and in front of it the alias, unless
the path shows it. Nothing is escaped and no path is refused, so a path may end its
literal, its line or the block, or put another path in its place.

Reading goes line by line. Up to its path a line is read as it is meant. If the path is
plain, the rest of it is, too, and the next line comes. If it is not, the literal
stands for something else, and however the text may be read from there on, the package
in question is a wrong one.

## Main definitions

* `Import.front`: What an import line has in front of its path.
* `Source.specOf`: What an import line is meant to say.
* `Source.NamedLegally`: An alias that is written out is a name of the language.
* `Model.bodyText`: The file behind the import block.

## Theorems

* `Source.readSpecs_line_iff`: When a line is read as it is meant.
* `Source.readSpecs_lines_iff`: When the lines of a block are.
* `Model.readImports_importText_iff`: When the import block of a file is.
* `Descriptor.Document.imports_faithful_iff`: The same for a record that has been loaded.
* `Descriptor.Document.imports_not_faithful`: A block that ends too early.
-/

namespace FunctionalOptions

namespace Go

/-- What an import line has in front of its path. -/
def Import.front (line : Import) : List Char :=
  if line.localName = lastSegment line.path then [] else line.localName.toList ++ [' ']

theorem Import.toList_text (line : Import) (rest : List Char) : line.text.toList ++ rest =
    '\t' :: (line.front ++ '"' :: (line.path.toList ++ '"' :: '\n' :: rest)) := by
  rw [text_eq, front]
  by_cases h : line.localName = lastSegment line.path
  · rw [if_pos h, if_pos h]
    simp
  · rw [if_neg h, if_neg h]
    simp

namespace Source

/-- What an import line is meant to say: the alias, unless the path shows it, and the
    path. -/
def specOf (line : Import) : Spec :=
  ⟨if line.localName = lastSegment line.path then none else some line.localName,
    utf8 line.path.toList⟩

theorem specOf_eta (line : Import) : ⟨(specOf line).name, utf8 line.path.toList⟩ = specOf line := by
  rw [specOf]

/-- Lines that are meant to say the same are the same. -/
theorem specOf_injective : Function.Injective specOf := by
  rintro ⟨path, localName⟩ ⟨other, otherName⟩ h
  obtain rfl : path = other := String.toList_inj.mp (utf8_injective (congrArg Spec.path h))
  have hname := congrArg Spec.name h
  simp only [specOf] at hname
  -- The path is known by now. An alias that is left out is the one that the path shows.
  by_cases h₁ : localName = lastSegment path
  · by_cases h₂ : otherName = lastSegment path
    · rw [h₁, h₂]
    · rw [if_pos h₁, if_neg h₂] at hname
      exact nomatch hname
  · by_cases h₂ : otherName = lastSegment path
    · rw [if_neg h₁, if_pos h₂] at hname
      exact nomatch hname
    · rw [if_neg h₁, if_neg h₂] at hname
      rw [Option.some.inj hname]

/-- If the line has an alias written out, it is a name of the language. -/
def NamedLegally (line : Import) : Prop :=
  line.isNamed = true → isLegalName line.localName = true

instance (line : Import) : Decidable (NamedLegally line) :=
  inferInstanceAs (Decidable (line.isNamed = true → isLegalName line.localName = true))

variable {c : Char} {rest : List Char}
variable {line : Import} {others : List Char → Option (List Spec × List Char)}

/-- At the end of a line the next package comes. -/
theorem closeSpec_break (spec : Spec) (rest : List Char) :
    closeSpec others spec ('\n' :: rest) =
      (others rest).map fun (specs, rest) => (spec :: specs, rest) :=
  rfl

/-- A block may end behind a package. -/
theorem closeSpec_parenthesis (spec : Spec) (rest : List Char) :
    closeSpec others spec (')' :: rest) = some ([spec], rest) := by
  rw [closeSpec, next_parenthesis (by decide)]
  rfl

/-- The package that comes first is the one that has been read. -/
theorem head?_of_closeSpec {spec : Spec} {text more : List Char} {specs : List Spec}
    (h : closeSpec others spec text = some (specs, more)) : specs.head? = some spec := by
  unfold closeSpec at h
  split at h
  · rcases Option.map_eq_some_iff.mp h with ⟨_, -, heq⟩
    obtain ⟨rfl, rfl⟩ := Prod.mk.inj heq
    rfl
  · obtain ⟨rfl, rfl⟩ := Prod.mk.inj (Option.some.inj h)
    rfl
  · exact nomatch h

/-- A name in front of a path belongs to the package with the path. -/
theorem readSpec_word {name : String} (h : isLegalName name = true) (body : List Char) :
    readSpec (.word name) (' ' :: '"' :: body) =
      (readQuoted body).map fun (bytes, more) => (⟨some name, bytes⟩, more) := by
  rw [readSpec, if_pos h, next_space rfl, next_quote]
  cases readQuoted body <;> rfl

/-- An import line is read up to its path, and then as its path is. -/
theorem readSpecs_line (hline : NamedLegally line) (limit : Nat) (rest : List Char) :
    readSpecs (limit + 1) (line.text.toList ++ rest) =
      (readQuoted (line.path.toList ++ '"' :: '\n' :: rest)).bind fun (bytes, more) =>
        closeSpec (readSpecs limit) ⟨(specOf line).name, bytes⟩ more := by
  rw [Import.toList_text, Import.front, specOf]
  by_cases hname : line.localName = lastSegment line.path
  · rw [if_pos hname, if_pos hname, List.nil_append, readSpecs, next_space rfl, next_quote]
    cases readQuoted (line.path.toList ++ '"' :: '\n' :: rest) <;> rfl
  · -- An alias that is written out has to be read as a word first.
    have hlegal := hline (bne_iff_ne.mpr hname)
    rw [if_neg hname, if_neg hname, List.append_assoc, List.singleton_append, readSpecs,
      next_space rfl, next_name hlegal (not_isWordPart_of_mem_head? _)]
    show (readSpec (.word line.localName) _).bind _ = _
    rw [readSpec_word hlegal]
    cases readQuoted (line.path.toList ++ '"' :: '\n' :: rest) <;> rfl

/-- The first line is read as it is meant exactly if its path is plain. -/
theorem readSpecs_line_iff (hline : NamedLegally line) (limit : Nat) (rest more : List Char)
    (specs : List Spec) :
    readSpecs (limit + 1) (line.text.toList ++ rest) = some (specOf line :: specs, more) ↔
      Plain line.path.toList ∧ readSpecs limit rest = some (specs, more) := by
  rw [readSpecs_line hline, Option.bind_eq_some_iff]
  constructor
  · rintro ⟨⟨bytes, after⟩, hread, hclose⟩
    -- However the text goes on, the first package is the one whose path has been read.
    have hspec := Option.some.inj (head?_of_closeSpec hclose)
    obtain rfl : utf8 line.path.toList = bytes := congrArg Spec.path hspec
    rcases (readQuoted_eq_utf8_iff ..).mp hread with ⟨hplain, rfl⟩
    simp only [specOf_eta, closeSpec_break] at hclose
    rcases Option.map_eq_some_iff.mp hclose with ⟨⟨specs', more'⟩, hothers, heq⟩
    obtain ⟨hcons, rfl⟩ := Prod.mk.inj heq
    exact ⟨hplain, (List.cons.inj hcons).2 ▸ hothers⟩
  · rintro ⟨hplain, hothers⟩
    have hread := (readQuoted_eq_utf8_iff line.path.toList rest _).mpr ⟨hplain, rfl⟩
    refine ⟨_, hread, ?_⟩
    simp only [specOf_eta, closeSpec_break, hothers, Option.map_some]

/-- The text of import lines. -/
def linesText (lines : List Import) : List Char :=
  lines.flatMap (·.text.toList)

/-- The lines of a block are read as they are meant, up to its end, exactly if all paths
    are plain. -/
theorem readSpecs_lines_iff {lines : List Import} (hlines : ∀ line ∈ lines, NamedLegally line)
    {limit : Nat} (hlimit : lines.length < limit) (rest more : List Char) :
    readSpecs limit (linesText lines ++ ')' :: rest) =
        some (lines.map specOf, more) ↔
      (∀ line ∈ lines, Plain line.path.toList) ∧ more = rest := by
  induction lines generalizing limit with
  | nil =>
      cases limit with
      | zero => exact absurd hlimit (Nat.lt_irrefl 0)
      | succ limit =>
          have hend : readSpecs (limit + 1) (linesText [] ++ ')' :: rest) = some ([], rest) := by
            show readSpecs (limit + 1) (')' :: rest) = _
            rw [readSpecs, next_parenthesis (by decide)]
            rfl
          simp [hend, eq_comm]
  | cons line lines ih =>
      cases limit with
      | zero => exact absurd hlimit (Nat.not_lt_zero _)
      | succ limit =>
          rcases List.forall_mem_cons.mp hlines with ⟨hline, hothers⟩
          -- One line is taken off, and one turn with it.
          rw [linesText, List.flatMap_cons, ← linesText, List.append_assoc, List.map_cons,
            readSpecs_line_iff hline,
            ih hothers (Nat.lt_of_succ_lt_succ hlimit), List.forall_mem_cons, and_assoc]

/-- Nothing else stands behind a block but the end of its line and an empty one. -/
theorem closeBlock_breaks {specs : List Spec} (hc : isWordStart c = true) :
    closeBlock specs ('\n' :: '\n' :: c :: rest) = some (specs, c :: rest) := by
  have hskip : skip false .blanks ('\n' :: c :: rest) = some (false, c :: rest) := skip_word hc
  rw [closeBlock, next_break]
  simp only [hskip, Option.map_some]

/-- The packages behind a block are those that stand in it. -/
theorem eq_of_closeBlock {specs specs' : List Spec} {text more : List Char}
    (h : closeBlock specs text = some (specs', more)) : specs = specs' := by
  unfold closeBlock at h
  split at h
  · rcases Option.map_eq_some_iff.mp h with ⟨_, -, heq⟩
    exact (Prod.mk.inj heq).1
  · exact nomatch h

/-- Lines have characters. -/
theorem length_le_length_linesText (lines : List Import) :
    lines.length ≤ (linesText lines).length := by
  unfold linesText
  induction lines with
  | nil => exact Nat.le_refl _
  | cons line lines ih =>
      -- The break at its end alone is a character.
      have hline : 0 < line.text.toList.length := by
        simp only [Import.text, String.toList_append, List.length_append]
        exact Nat.add_pos_right _ (by decide)
      rw [List.flatMap_cons, List.length_append, List.length_cons]
      omega

/-- Behind its first word, a declaration with a block is read as the block is. -/
theorem readImports_import (text : List Char) :
    readImports ("import".toList ++ ' ' :: '(' :: text) =
      (readSpecs (text.length + 1) text).bind fun (specs, rest) => closeBlock specs rest := by
  have hname : "import".toList = 'i' :: "mport".toList := rfl
  have hparts : "mport".toList.all isWordPart = true := by
    decide
  rw [readImports, next_word hname (by decide) (List.all_eq_true.mp hparts)
    (not_isWordPart_of_mem_head? _)]
  simp only [next_space (show isSpace ' ' = true from rfl), next_parenthesis List.mem_cons_self]

/-- A text that begins with another word has no import declaration. -/
theorem readImports_of_word {name : String} {more : List Char} (hname : name.toList = c :: more)
    (hc : isWordStart c = true) (hmore : ∀ d ∈ more, isWordPart d = true)
    (hrest : ∀ d ∈ rest.head?, isWordPart d = false) (hother : name ≠ "import") :
    readImports (name.toList ++ rest) = some ([], name.toList ++ rest) := by
  rw [readImports, next_word hname hc hmore hrest]
  simp [hother]

/-- A declaration with a block is read as its lines are. -/
theorem readImports_lines (lines : List Import) (rest : List Char) :
    ∃ limit, lines.length < limit ∧
      readImports ("import (\n".toList ++ linesText lines ++ ")\n\n".toList ++ rest) =
        (readSpecs limit (linesText lines ++ ')' :: '\n' :: '\n' :: rest)).bind
          fun (specs, rest) => closeBlock specs rest := by
  have htext : "import (\n".toList ++ linesText lines ++ ")\n\n".toList ++ rest =
      "import".toList ++ ' ' :: '(' :: '\n' ::
        (linesText lines ++ ')' :: '\n' :: '\n' :: rest) := by
    simp
  -- What is left of the first line is only its break.
  have hbreak (limit : Nat) (text : List Char) :
      readSpecs (limit + 1) ('\n' :: text) = readSpecs (limit + 1) text := by
    rw [readSpecs, readSpecs, next_false_break]
  have hlength := length_le_length_linesText lines
  rw [htext, readImports_import, hbreak]
  refine ⟨_, ?_, rfl⟩
  simp only [List.length_cons, List.length_append]
  omega

/-- A declaration with a block is read as it is meant, up to the next one, exactly if all
    paths are plain. -/
theorem readImports_lines_iff {lines : List Import} (hlines : ∀ line ∈ lines, NamedLegally line)
    (hc : isWordStart c = true) :
    readImports ("import (\n".toList ++ linesText lines ++ ")\n\n".toList ++ c :: rest) =
        some (lines.map specOf, c :: rest) ↔
      ∀ line ∈ lines, Plain line.path.toList := by
  rcases readImports_lines lines (c :: rest) with ⟨limit, hlimit, hread⟩
  have hspecs := readSpecs_lines_iff hlines hlimit ('\n' :: '\n' :: c :: rest)
  rw [hread, Option.bind_eq_some_iff]
  constructor
  · rintro ⟨⟨specs, after⟩, hafter, hclose⟩
    -- Whatever stands behind the block, the packages are those that were read in it.
    obtain rfl := eq_of_closeBlock hclose
    exact ((hspecs after).mp hafter).1
  · intro hplain
    exact ⟨_, (hspecs _).mpr ⟨hplain, rfl⟩, closeBlock_breaks hc⟩

end Source

end Go

namespace Model

variable (model : Model)

/-- The file behind the import block. -/
def bodyText (functions : List OptionFunction) : String :=
  model.optionTypeText ++ "\n" ++ model.applyText ++ String.join (functions.map model.functionText)

/-- A file is its header, the import block and what is behind the block. -/
theorem sourceText_eq (functions : List OptionFunction) :
    model.sourceText functions =
      model.headerText ++ (model.importText ++ model.bodyText functions) := by
  simp only [sourceText, bodyText, String.append_assoc]

/-- Texts are joined one behind the other. -/
theorem toList_join (texts : List String) :
    (String.join texts).toList = texts.flatMap String.toList := by
  -- The texts are joined from the left, so the induction is on any start.
  have hfold (start : String) : (texts.foldl (· ++ ·) start).toList =
      start.toList ++ texts.flatMap String.toList := by
    induction texts generalizing start with
    | nil => simp
    | cons text texts ih => rw [List.foldl_cons, ih, String.toList_append, List.flatMap_cons,
        List.append_assoc]
  exact hfold ""

theorem toList_importText (h : model.imports ≠ []) : model.importText.toList =
    "import (\n".toList ++ Go.Source.linesText model.imports ++ ")\n\n".toList := by
  unfold importText
  cases hlines : model.imports with
  | nil => exact absurd hlines h
  | cons line lines =>
      simp only [String.toList_append, toList_join, List.flatMap_map, Go.Source.linesText]

/-- What is behind the import block begins with the declaration of the option type. -/
theorem toList_bodyText (functions : List OptionFunction) :
    ∃ rest, (model.bodyText functions).toList = "type".toList ++ ' ' :: rest := by
  unfold bodyText optionTypeText
  simp only [String.toList_append, List.append_assoc]
  exact ⟨_, rfl⟩

/-- The import block is read as it is meant, up to what is behind it, exactly if all paths
    are plain. -/
theorem readImports_importText_iff (hlines : ∀ line ∈ model.imports, Go.Source.NamedLegally line)
    (functions : List OptionFunction) :
    Go.Source.readImports (model.importText ++ model.bodyText functions).toList =
        some (model.imports.map Go.Source.specOf, (model.bodyText functions).toList) ↔
      ∀ line ∈ model.imports, Go.Plain line.path.toList := by
  rcases model.toList_bodyText functions with ⟨rest, hbody⟩
  rw [String.toList_append, hbody]
  have hname : "type".toList = 't' :: "ype".toList := rfl
  -- Without imports there is no block, and the file goes on with its first declaration.
  by_cases hnone : model.imports = []
  · have hempty : model.importText.toList = [] := by
      rw [importText, hnone]
      rfl
    have hparts : "ype".toList.all Go.isWordPart = true := by
      decide
    rw [hempty, hnone, List.nil_append, Go.Source.readImports_of_word hname (by decide)
      (List.all_eq_true.mp hparts) (Go.Source.not_isWordPart_of_mem_head? rest) (by decide)]
    simp
  · rw [toList_importText model hnone, hname]
    exact Go.Source.readImports_lines_iff hlines (by decide)

end Model

namespace Descriptor

namespace Document

variable {document : Document} {name : String} {package : Go.Package}
  {record : FunctionalOptions.Record}

/-- The import lines for a record that has been loaded are those that its options need.
    As long as the aliases that are written out are names of the language, the block of
    its file is read as these lines, each with an alias exactly if the path does not show
    it, and up to what stands behind it, if and only if no path has a quote, a backslash
    or a line break in it. -/
theorem imports_faithful_iff (hload : (document.load name).result = .ok (package, record))
    (settings : Settings) (functions : List OptionFunction)
    (hlines : ∀ line ∈ (Model.of settings package record).imports,
      Go.Source.NamedLegally line) :
    (Model.of settings package record).ImportsExact ∧
    (Model.of settings package record).sourceText functions =
      (Model.of settings package record).headerText ++
        ((Model.of settings package record).importText ++
          (Model.of settings package record).bodyText functions) ∧
    Function.Injective Go.Source.specOf ∧
    (Go.Source.readImports ((Model.of settings package record).importText ++
        (Model.of settings package record).bodyText functions).toList =
      some ((Model.of settings package record).imports.map Go.Source.specOf,
        ((Model.of settings package record).bodyText functions).toList) ↔
      ∀ line ∈ (Model.of settings package record).imports,
        ∀ c ∈ line.path.toList, c ≠ '"' ∧ c ≠ '\\' ∧ c ≠ '\n') :=
  ⟨Model.importsExact_of_valid (validate_of_load hload), Model.sourceText_eq _ functions,
    Go.Source.specOf_injective, Model.readImports_importText_iff _ hlines functions⟩

theorem imports_faithful_orders :
    (orders.load "Order").result = .ok (⟨"example.com/shop", "shop"⟩, order) ∧ ∀ functions,
      Go.Source.readImports ((Model.of {} ⟨"example.com/shop", "shop"⟩ order).importText ++
          (Model.of {} ⟨"example.com/shop", "shop"⟩ order).bodyText functions).toList =
        some ([⟨some "geo", Go.utf8 "example.com/geo/v2".toList⟩, ⟨none, Go.utf8 "time".toList⟩],
          ((Model.of {} ⟨"example.com/shop", "shop"⟩ order).bodyText functions).toList) := by
  have hspecs : (Model.of {} ⟨"example.com/shop", "shop"⟩ order).imports.map Go.Source.specOf =
      [⟨some "geo", Go.utf8 "example.com/geo/v2".toList⟩, ⟨none, Go.utf8 "time".toList⟩] := by
    decide
  have hall : (Model.of {} ⟨"example.com/shop", "shop"⟩ order).imports.all (fun line =>
      decide (Go.Source.NamedLegally line) && decide (Go.Plain line.path.toList)) = true := by
    decide
  have hlines : ∀ line ∈ (Model.of {} ⟨"example.com/shop", "shop"⟩ order).imports,
      Go.Source.NamedLegally line ∧ Go.Plain line.path.toList := by
    simpa only [List.all_eq_true, Bool.and_eq_true, decide_eq_true_eq] using hall
  refine ⟨load_orders, fun functions => ?_⟩
  rw [← hspecs]
  exact (imports_faithful_iff load_orders {} functions fun line hline =>
    (hlines line hline).1).2.2.2.mpr fun line hline => (hlines line hline).2

/-- A document with a package whose path has a quote in it. -/
def strays : Document :=
  ⟨⟨"example.com/shop", none⟩, [⟨"Order", [
    ⟨"Out", .named (some ⟨"io\")//", some "io"⟩) "Writer", none⟩]⟩]⟩

/-- Its record. -/
def stray : FunctionalOptions.Record :=
  ⟨"Order", [⟨"Out", .named (some ⟨"io\")//", "io"⟩) "Writer", false⟩]⟩

/-- The path ends its literal and the block, and another package is imported. -/
theorem imports_not_faithful :
    (strays.load "Order").result = .ok (⟨"example.com/shop", "shop"⟩, stray) ∧
      (Model.of {} ⟨"example.com/shop", "shop"⟩ stray).imports = [⟨"io\")//", "io"⟩] ∧
      ∀ functions, Go.Source.readImports
          ((Model.of {} ⟨"example.com/shop", "shop"⟩ stray).importText ++
            (Model.of {} ⟨"example.com/shop", "shop"⟩ stray).bodyText functions).toList =
        some ([⟨some "io", Go.utf8 "io".toList⟩], ')' :: '\n' :: '\n' ::
          ((Model.of {} ⟨"example.com/shop", "shop"⟩ stray).bodyText functions).toList) := by
  have himports : (Model.of {} ⟨"example.com/shop", "shop"⟩ stray).imports =
      [⟨"io\")//", "io"⟩] := by
    decide
  refine ⟨(load_eq_ok_iff ..).mpr ⟨by decide, ⟨_, rfl, rfl⟩, by decide, rfl⟩,
    himports, fun functions => ?_⟩
  rw [String.toList_append, Model.toList_importText _ (himports ▸ List.cons_ne_nil _ _), himports]
  generalize ((Model.of {} ⟨"example.com/shop", "shop"⟩ stray).bodyText functions).toList = body
  rcases Go.Source.readImports_lines [⟨"io\")//", "io"⟩] body with ⟨_ | limit, hlimit, hread⟩
  · exact absurd hlimit (Nat.not_lt_zero _)
  · have hplain : Go.Plain "io".toList := by decide
    have hquoted (rest : List Char) : Go.readQuoted ("io\")//".toList ++ rest) =
        some (Go.utf8 "io".toList, ')' :: '/' :: '/' :: rest) :=
      Go.readQuoted_of_plain hplain (')' :: '/' :: '/' :: rest)
    have hname : (Go.Source.specOf ⟨"io\")//", "io"⟩).name = some "io" := by
      decide
    -- Behind the parenthesis in the path, the rest of the line is a comment.
    have hcomment (specs : List Go.Source.Spec) (rest : List Char) :
        Go.Source.closeBlock specs ('/' :: '/' :: '"' :: '\n' :: ')' :: rest) =
          some (specs, ')' :: rest) :=
      rfl
    rw [hread, Go.Source.linesText, List.flatMap_singleton,
      Go.Source.readSpecs_line (by decide), hquoted]
    simp only [Option.bind_some, hname, Go.Source.closeSpec_parenthesis, hcomment]

end Document

end Descriptor

end FunctionalOptions
