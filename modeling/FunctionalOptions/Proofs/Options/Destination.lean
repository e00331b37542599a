import FunctionalOptions.Options.OutputFile
import FunctionalOptions.Proofs.Conversion.Records
import FunctionalOptions.Proofs.Names.Letters
import FunctionalOptions.Proofs.Options.RenderSafety
import FunctionalOptions.Proofs.Text.Split

/-!
# Files Beside Their Source

Where an options file goes when no path is asked for. Its name is made of the
name of the type as it was given, which may be any text, and a text with slashes
in it would lead out of the source directory, or replace it altogether.

Nothing looks at the name of the file to prevent this. What prevents it comes
earlier: no file is written for a type without a record, the record has the name
that was asked for, and validation has found that to be an identifier. Lowering
an identifier does not lead to a slash either, in none of the ways in which a
letter can be lowered, and the end of the name stays what it is.

## Theorems

* `Unicode.not_mem_lowercase`: Lowering a text does not lead to a slash.
* `defaultFileName_spec`: The name of the file of an identifier.
* `Path.fileName?_join`: A path inside a directory ends with the name it was
  made with.
* `Descriptor.Document.generateToFile_beside`: A file that no path was asked for
  is put beside its source.
-/

namespace FunctionalOptions

namespace Unicode

theorem slash_no_letter : isAlphabetic '/' = false ∧ isNumeric '/' = false := by
  rw [isAlphabetic_ascii (by decide), isNumeric_ascii (by decide)]
  decide

/-- No character but the slash has a slash in its small form. -/
theorem eq_of_mem_toLower {c : Char} (h : '/' ∈ toLower c) : c = '/' := by
  rcases toLower_cases c with rfl | hself | ⟨d, hd, hletter, -⟩
  · rw [toLower_dotted] at h
    exact absurd h (by decide)
  · rw [hself, List.mem_singleton] at h
    exact h.symm
  · rw [hd, List.mem_singleton] at h
    rw [← h, slash_no_letter.1] at hletter
    exact absurd hletter Bool.false_ne_true

theorem not_mem_lowercaseFrom (passed : List Char) {text : List Char} (h : '/' ∉ text) :
    '/' ∉ lowercaseFrom passed text := by
  induction text generalizing passed with
  | nil => exact List.not_mem_nil
  | cons c rest ih =>
      rw [List.mem_cons, not_or] at h
      rw [lowercaseFrom, List.mem_append, not_or]
      refine ⟨fun hsmall => ?_, ih _ h.2⟩
      split at hsmall
      · -- Both small forms of the sigma are letters.
        split at hsmall
        · exact absurd hsmall (by decide)
        · exact absurd hsmall (by decide)
      · exact h.1 (eq_of_mem_toLower hsmall).symm

/-- Lowering a text does not lead to a slash. -/
theorem not_mem_lowercase {text : String} (h : '/' ∉ text.toList) :
    '/' ∉ (lowercase text).toList := by
  rw [lowercase, String.toList_ofList]
  exact not_mem_lowercaseFrom [] h

/-- What comes later in a text is lowered later. -/
theorem exists_lowercaseFrom_append (passed front back : List Char) :
    ∃ small, lowercaseFrom passed (front ++ back) =
      small ++ lowercaseFrom (front.reverse ++ passed) back := by
  induction front generalizing passed with
  | nil => exact ⟨[], rfl⟩
  | cons c front ih =>
      rcases ih (c :: passed) with ⟨small, hsmall⟩
      rw [List.cons_append, lowercaseFrom, hsmall, ← List.append_assoc, List.reverse_cons,
        List.append_assoc front.reverse, List.singleton_append]
      exact ⟨_, rfl⟩

/-- A text of small characters is its own small form, wherever it stands. -/
theorem lowercaseFrom_of_small (passed : List Char) {text : List Char}
    (h : ∀ c ∈ text, c ≠ capitalSigma ∧ toLower c = [c]) : lowercaseFrom passed text = text := by
  induction text generalizing passed with
  | nil => rfl
  | cons c rest ih =>
      rw [List.forall_mem_cons] at h
      rw [lowercaseFrom, if_neg h.1.1, h.1.2, ih _ h.2, List.singleton_append]

end Unicode

/-! ## The name of the file -/

/-- There is no slash in an identifier. -/
theorem Go.not_mem_of_isIdentifier {name : String} (h : Go.isIdentifier name = true) :
    '/' ∉ name.toList := by
  intro hmem
  rw [isIdentifier] at h
  split at h
  · exact absurd h Bool.false_ne_true
  · next c rest hname =>
    rw [Bool.and_eq_true, List.all_eq_true] at h
    rw [hname, List.mem_cons] at hmem
    -- A slash can neither begin a name nor go on with it.
    rcases hmem with rfl | hmem
    · rw [isNameStart, Unicode.slash_no_letter.1] at h
      exact absurd h.1 (by decide)
    · have hpart := h.2 _ hmem
      rw [isNamePart, Unicode.slash_no_letter.1, Unicode.slash_no_letter.2] at hpart
      exact absurd hpart (by decide)

/-- The name of the options file of an identifier has no slash in it and ends as
    all such names do. -/
theorem defaultFileName_spec {type : String} (h : Go.isIdentifier type = true) :
    '/' ∉ (defaultFileName type).toList ∧
      ∃ stem, defaultFileName type = stem ++ "_options.go" := by
  constructor
  · refine Unicode.not_mem_lowercase ?_
    rw [String.toList_append, List.mem_append, not_or]
    exact ⟨Go.not_mem_of_isIdentifier h, by decide⟩
  · have hsmall : ∀ c ∈ "_options.go".toList,
        c ≠ Unicode.capitalSigma ∧ Unicode.toLower c = [c] := by
      have hall : "_options.go".toList.all
          (fun c => c ≠ Unicode.capitalSigma ∧ Unicode.toLower c = [c]) = true := by
        decide
      exact fun c hc => of_decide_eq_true (List.all_eq_true.mp hall c hc)
    -- The ending is small already, so it comes through unchanged.
    rcases Unicode.exists_lowercaseFrom_append [] type.toList "_options.go".toList with
      ⟨stem, hstem⟩
    rw [Unicode.lowercaseFrom_of_small _ hsmall] at hstem
    refine ⟨String.ofList stem, ?_⟩
    rw [defaultFileName, Unicode.lowercase, String.toList_append, hstem, String.ofList_append,
      String.ofList_toList]

/-! ## The path of the file -/

namespace Path

/-- The last piece of a path is a name if it is one of a file in a directory, and
    it is the name of the path. -/
theorem fileName?_of_splitAt {path : String} {name : List Char} {others : List (List Char)}
    (hpieces : reversedPieces path = name :: others)
    (hname : name ∉ [[], ['.'], ['.', '.']]) : fileName? path = some name := by
  simp only [List.mem_cons, List.not_mem_nil, or_false, not_or] at hname
  rcases hname with ⟨hempty, hdot, hdots⟩
  rw [fileName?, hpieces, dropTrivial, if_neg (by simp [hempty, hdot])]
  exact if_neg (by simp [hdot, hdots])

/-- The text is the name, or ends with a slash and the name. -/
inductive EndsIn (name : List Char) : List Char → Prop where
  | name : EndsIn name name
  | slash (front : List Char) : EndsIn name (front ++ '/' :: name)

theorem EndsIn.exists_splitAt {name text : List Char} (h : EndsIn name text) (hslash : '/' ∉ name) :
    ∃ others, (Text.splitAt '/' text).reverse = name :: others := by
  cases h with
  | name =>
      rw [Text.splitAt_of_not_mem hslash]
      exact ⟨[], rfl⟩
  | slash front =>
      rw [Text.splitAt_append, Text.splitAt_of_not_mem hslash, List.reverse_append]
      exact ⟨_, rfl⟩

/-- It still does without the slash at its beginning. -/
theorem EndsIn.of_cons {name text : List Char} (h : EndsIn name ('/' :: text))
    (hslash : '/' ∉ name) : EndsIn name text := by
  generalize hwhole : '/' :: text = whole at h
  cases h with
  | name => exact absurd (hwhole ▸ List.mem_cons_self) hslash
  | slash front =>
      cases front with
      | nil =>
          obtain ⟨-, rfl⟩ := List.cons.inj hwhole
          exact .name
      | cons c front =>
          obtain ⟨-, rfl⟩ := List.cons.inj hwhole
          exact .slash front

/-- A path inside a directory ends in its name. -/
theorem endsIn_join (directory : String) {name : String} (hslash : '/' ∉ name.toList) :
    EndsIn name.toList (join directory name).toList := by
  have hrelative : ¬isAbsolute name = true := by
    intro habsolute
    rw [isAbsolute, decide_eq_true_eq] at habsolute
    exact hslash (List.mem_of_mem_head? habsolute)
  rw [join, if_neg hrelative]
  -- A slash is put between the two, unless the directory is empty or ends with one.
  split
  · next hend =>
    rw [String.toList_append]
    rcases Bool.or_eq_true_iff.mp hend with hempty | hlast
    · rw [List.isEmpty_iff.mp hempty]
      exact .name
    · rcases List.getLast?_eq_some_iff.mp (of_decide_eq_true hlast) with ⟨front, hfront⟩
      rw [hfront, List.append_assoc]
      exact .slash front
  · rw [String.toList_append, String.toList_append, List.append_assoc]
    exact .slash directory.toList

/-- A path inside a directory ends with the name it was made with. -/
theorem fileName?_join (directory : String) {name : String} (hslash : '/' ∉ name.toList)
    (hname : name.toList ∉ [[], ['.'], ['.', '.']]) :
    fileName? (join directory name) = some name.toList := by
  have hends := endsIn_join directory hslash
  have hpieces : ∃ others, reversedPieces (join directory name) = name.toList :: others := by
    rw [reversedPieces]
    split
    · next habsolute =>
      -- The slash that a path begins with is left out before the path is cut.
      rw [isAbsolute, decide_eq_true_eq] at habsolute
      rcases List.head?_eq_some_iff.mp habsolute with ⟨rest, hrest⟩
      rw [hrest] at hends ⊢
      exact (hends.of_cons hslash).exists_splitAt hslash
    · exact hends.exists_splitAt hslash
  rcases hpieces with ⟨others, hpieces⟩
  exact fileName?_of_splitAt hpieces hname

end Path

namespace Descriptor

namespace Document

variable {document : Document} {name : String}

/-- A record that is loaded has the name that was asked for. -/
theorem name_of_load {package : Go.Package} {record : FunctionalOptions.Record}
    (h : (document.load name).result = .ok (package, record)) : record.name = name := by
  rcases (document.load_eq_ok_iff name package record).mp h with
    ⟨-, ⟨descriptor, hfind, hrecord⟩, -⟩
  have hdescriptor : descriptor.name = name := by
    rw [find] at hfind
    split at hfind
    · next found hfound =>
      obtain rfl := Except.ok.inj hfind
      rw [record?] at hfound
      exact eq_of_beq (List.find?_some hfound :)
    · cases hfind
  -- The conversion keeps the name of the record that was found.
  rw [FunctionalOptions.Record.ofDescriptor, Logged.result_bind_eq_ok_iff] at hrecord
  rcases hrecord with ⟨fields, -, hrecord⟩
  rw [← Except.ok.inj hrecord]
  exact hdescriptor

/-- A file is generated for a name only if the name is an identifier. -/
theorem isIdentifier_of_generate {settings : Settings} {text : String}
    (h : (document.generate name settings).result = .ok text) : Go.isIdentifier name = true := by
  rcases (document.generate_eq_ok_iff name settings text).mp h with ⟨package, record, _, hload, -⟩
  rw [← name_of_load hload]
  exact ((FunctionalOptions.Record.validate_eq_ok_iff record).mp (validate_of_load hload)).1

end Document

/-- If a file is written that no path was asked for, its path is the source directory
    with a single name behind it. There is no slash in the name, which ends as all
    names of options files do. -/
theorem Document.generateToFile_beside {m : Type → Type} [Monad m] [LawfulMonad m] [Filesystem m]
    (document : Document) (type sourceDirectory : String) (settings : Settings) :
    Always (fun outcome => ∀ path, outcome.result = .ok path →
        ∃ name, path = Path.join sourceDirectory name ∧ '/' ∉ name.toList ∧
          (∃ stem, name = stem ++ "_options.go") ∧ Path.fileName? path = some name.toList)
      (document.generateToFile type sourceDirectory none settings :
        m (Logged GenerationError String)) := by
  rw [generateToFile, Provider.generateToFile]
  split
  · refine .pure ?_
    rintro path ⟨⟩
  · next text hsource =>
    have hspec := defaultFileName_spec (isIdentifier_of_generate hsource)
    -- With this ending the name is longer than the names that are none.
    have hname : (defaultFileName type).toList ∉ [[], ['.'], ['.', '.']] := by
      rcases hspec.2 with ⟨stem, hstem⟩
      rw [hstem, String.toList_append]
      intro hmem
      have hlength : (stem.toList ++ "_options.go".toList).length ≤ 2 := by
        simp only [List.mem_cons, List.not_mem_nil, or_false] at hmem
        rcases hmem with hmem | hmem | hmem <;> rw [hmem] <;> decide
      rw [List.length_append] at hlength
      have hend : "_options.go".toList.length = 11 := rfl
      omega
    refine .bind (.anything _) fun written _ => .pure fun path h => ?_
    -- Whatever comes of the writing, the path that is returned is the destination.
    simp only [Logged.result_bind_eq_ok_iff, Logged.result_pure] at h
    rcases h with ⟨-, -, -, -, h⟩
    rw [← Except.ok.inj h]
    exact ⟨_, rfl, hspec.1, hspec.2, Path.fileName?_join sourceDirectory hspec.1 hname⟩

/-- A document with a record whose name ends in the letter that has two small forms. -/
def Document.numerals : Document :=
  ⟨⟨"example.com/tally", none⟩, [⟨"ΑΡΙΘΜΟΣ", [⟨"Value", .basic "int", none⟩]⟩]⟩

theorem Document.generateToFile_beside_numerals :
    ∃ path, ((numerals.generateToFile "ΑΡΙΘΜΟΣ" "/src" none {} : OnTree _) ⟨[], []⟩).1.result =
        .ok path ∧ path = "/src/αριθμος_options.go" ∧
      ∃ name, path = Path.join "/src" name ∧ '/' ∉ name.toList ∧
        Path.fileName? path = some name.toList := by
  have hwritten : ((numerals.generateToFile "ΑΡΙΘΜΟΣ" "/src" none {} : OnTree _)
      ⟨[], []⟩).1.result.toOption = some "/src/αριθμος_options.go" := by
    decide +kernel
  have halways := (numerals.generateToFile_beside "ΑΡΙΘΜΟΣ" "/src" {} (m := OnTree)).onTree ⟨[], []⟩
  cases hresult : ((numerals.generateToFile "ΑΡΙΘΜΟΣ" "/src" none {} : OnTree _)
      ⟨[], []⟩).1.result with
  | error error =>
      rw [hresult] at hwritten
      cases hwritten
  | ok path =>
      rw [hresult] at hwritten
      rcases halways path hresult with ⟨name, hpath, hslash, -, hname⟩
      exact ⟨path, rfl, Option.some.inj hwritten, name, hpath, hslash, hname⟩

end Descriptor

end FunctionalOptions
