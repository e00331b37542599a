import FunctionalOptions.Proofs.Imports.Exactness
import FunctionalOptions.Proofs.Names.Parameters

/-!
# Names That Can Be Used

Which of the names in a generated file are names. Validation looks at the names
that a record comes with: its own and those of its fields. The file is full of
others, made from them by changing the case of the first character, and whether
these are names is nowhere looked at.

Nearly always they are. The exceptions are `İ` at the beginning of a record or a
field, which is lowered to two characters of which the second is a combining mark,
and, at the beginning of a field, the letters whose capital form takes such a mark.
A record that begins with an underscore has a blank receiver, which is a name and
cannot be used as one.

## Theorems

* `Descriptor.Document.isIdentifier_field`: The field that a function sets has a
  name that has been validated.
* `Descriptor.Document.names_usable_iff`: Which receivers, functions and parameters
  are names, and which are blank.
* `Descriptor.Document.names_not_usable`: Not all of them are.
-/

namespace FunctionalOptions

namespace Model

variable {model : Model} {functions : List OptionFunction}

/-- The field of a function is a selected field. -/
theorem exists_selected (h : model.functions.result = .ok functions) {f : OptionFunction}
    (hf : f ∈ functions) : ∃ field ∈ model.selected, model.Emits field f := by
  have hemits := model.emits_of_functionsOf _ _ h
  -- Functions and fields stand at the same positions.
  rcases List.mem_iff_getElem.mp hf with ⟨i, hi, rfl⟩
  have hlength := hemits.length_eq
  exact ⟨model.selected.get ⟨i, hlength ▸ hi⟩, List.get_mem _ _, hemits.get _ _⟩

/-- The numeral of a number can stand inside a name. -/
theorem isNamePart_toString (n : Nat) : ∀ c ∈ (toString n).toList, Go.isNamePart c = true := by
  intro c hc
  rw [Nat.toString_eq_ofList_toDigits, String.toList_ofList] at hc
  exact Go.isNamePart_digit (Nat.isDigit_of_mem_toDigits (by decide) (by decide) hc)

/-- What stands behind the lowered name of the field in a parameter can stand inside a
    name. -/
theorem exists_parameter_append (h : model.functions.result = .ok functions)
    {f : OptionFunction} (hf : f ∈ functions) :
    ∃ more : String, (∀ c ∈ more.toList, Go.isNamePart c = true) ∧
      f.parameter = Go.lowerFirst f.field ++ more := by
  -- Nothing stands behind the lowered name, or a number does.
  rcases parameter_of_functions h f hf with ⟨-, hparameter⟩ | ⟨-, i, hparameter⟩
  · refine ⟨"", fun c hc => absurd hc List.not_mem_nil, ?_⟩
    rw [hparameter, String.append_empty]
  · exact ⟨toString i, isNamePart_toString i, hparameter⟩

end Model

namespace Descriptor

namespace Document

variable {document : Document} {name : String} {package : Go.Package}
  {record : FunctionalOptions.Record}

/-- The field of a function for a record that has been loaded has a proper name,
    which is not blank. -/
theorem isIdentifier_field (hload : (document.load name).result = .ok (package, record))
    {settings : Settings} {functions : List OptionFunction}
    (h : (Model.of settings package record).functions.result = .ok functions) {f : OptionFunction}
    (hf : f ∈ functions) : Go.isIdentifier f.field = true ∧ f.field ≠ "_" := by
  have hvalid := validate_of_load hload
  rcases Model.exists_selected h hf with ⟨field, hfield, hemit⟩
  rcases (Model.mem_selected_iff _ _).mp hfield with ⟨hmem, -, hblank, -⟩
  rw [hemit.field_eq]
  exact ⟨(((Record.validate_eq_ok_iff record).mp hvalid).2.1 field hmem).1, hblank⟩

/-- For a record that has been loaded and the default settings, the receiver is a
    name unless the record begins with `İ`, and is blank if the record begins with an
    underscore. A parameter is a name unless its field begins with `İ`, and is never
    blank. A function has a name unless its field begins with one of the letters whose
    capital form takes a combining mark. -/
theorem names_usable_iff (hload : (document.load name).result = .ok (package, record)) :
    (Go.isIdentifier (Model.of {} package record).receiver = true ↔
      record.name.toList.head? ≠ some 'İ') ∧
    ((Model.of {} package record).receiver = "_" ↔ record.name.toList.head? = some '_') ∧
    ∀ functions, (Model.of {} package record).functions.result = .ok functions →
      ∀ f ∈ functions,
        (Go.isIdentifier f.parameter = true ↔ f.field.toList.head? ≠ some 'İ') ∧
        f.parameter ≠ "_" ∧
        (Go.isIdentifier f.name = true ↔ ∀ c ∈ f.field.toList.head?, c ∉ Go.markedCapitals) := by
  have hvalid := validate_of_load hload
  have hrecord : Go.isIdentifier record.name = true :=
    ((Record.validate_eq_ok_iff record).mp hvalid).1
  refine ⟨Go.isIdentifier_lowerInitial_iff hrecord, Go.lowerInitial_eq_blank_iff hrecord,
    fun functions h f hf => ?_⟩
  rcases isIdentifier_field hload h hf with ⟨hfield, hblank⟩
  rcases Model.exists_parameter_append h hf with ⟨more, hmore, hparameter⟩
  -- What is put behind the name of the field makes no difference to any of this.
  rw [hparameter]
  refine ⟨Go.isIdentifier_lowerFirst_append_iff more hfield hmore,
    Go.lowerFirst_append_ne_blank more hfield hblank, ?_⟩
  have hleading : Go.isIdentifier "With" = true := by
    decide
  rcases Model.exists_selected h hf with ⟨field, -, hemit⟩
  rw [hemit.field_eq] at hfield
  rw [hemit.name_eq, hemit.field_eq]
  exact Go.isIdentifier_append_title_iff hleading hfield

/-- A document with a field that is called like a keyword. -/
def crates : Document :=
  ⟨⟨"example.com/store", none⟩, [⟨"Crate", [⟨"Label", .basic "string", none⟩,
    ⟨"Type", .pointer (.basic "int"), none⟩]⟩]⟩

theorem names_usable_crates :
    ∃ package record, (crates.load "Crate").result = .ok (package, record) ∧
      Go.isIdentifier (Model.of {} package record).receiver = true ∧
      (Model.of {} package record).receiver ≠ "_" ∧
      ∃ functions, (Model.of {} package record).functions.result = .ok functions ∧
        functions.map (·.parameter) = ["label", "type0"] ∧
        ∀ f ∈ functions, Go.isIdentifier f.parameter = true ∧ f.parameter ≠ "_" ∧
          Go.isIdentifier f.name = true := by
  have hload : (crates.load "Crate").result = .ok (⟨"example.com/store", "store"⟩, ⟨"Crate",
      [⟨"Label", .predeclared "string", false⟩, ⟨"Type", .pointer (.predeclared "int"), false⟩]⟩) :=
    (load_eq_ok_iff ..).mpr ⟨by decide, ⟨_, rfl, rfl⟩, by decide, rfl⟩
  rcases names_usable_iff hload with ⟨hreceiver, hblank, hfunctions⟩
  refine ⟨_, _, hload, hreceiver.mpr (by decide), fun heq => absurd (hblank.mp heq) (by decide),
    _, rfl, by decide, fun f hf => ?_⟩
  rcases hfunctions _ rfl f hf with ⟨hparameter, hproper, hname⟩
  -- The fields of both functions begin with plain capital letters.
  have hfield : ∃ c ∈ ['L', 'T'], f.field.toList.head? = some c := by
    rcases List.mem_pair.mp hf with rfl | rfl
    · exact ⟨'L', by decide, by decide⟩
    · exact ⟨'T', by decide, by decide⟩
  rcases hfield with ⟨c, hc, heq⟩
  have hplain : c ≠ 'İ' ∧ c ∉ Go.markedCapitals := by
    rcases List.mem_pair.mp hc with rfl | rfl
    · exact ⟨by decide, by decide⟩
    · exact ⟨by decide, by decide⟩
  rw [heq] at hparameter hname
  refine ⟨hparameter.mpr ?_, hproper, hname.mpr ?_⟩
  · intro hsome
    exact hplain.1 (Option.some.inj hsome)
  · intro d hd
    rw [← Option.mem_some_iff.mp hd]
    exact hplain.2

/-- A document with a record that begins with an underscore, and fields whose first
    characters change into two. -/
def boxes : Document :=
  ⟨⟨"example.com/store", none⟩, [⟨"_Box", [⟨"\u01F0et", .basic "string", none⟩,
    ⟨"\u0130d", .basic "int", none⟩]⟩]⟩

/-- A receiver may be blank, and neither functions nor parameters need be names. -/
theorem names_not_usable :
    ∃ package record functions, (boxes.load "_Box").result = .ok (package, record) ∧
      (Model.of {} package record).functions.result = .ok functions ∧
      (Model.of {} package record).receiver = "_" ∧
      (∃ f ∈ functions, Go.isIdentifier f.name = false) ∧
      ∃ f ∈ functions, Go.isIdentifier f.parameter = false := by
  have hload : (boxes.load "_Box").result = .ok (⟨"example.com/store", "store"⟩, ⟨"_Box",
      [⟨"\u01F0et", .predeclared "string", false⟩, ⟨"\u0130d", .predeclared "int", false⟩]⟩) :=
    (load_eq_ok_iff ..).mpr ⟨by decide, ⟨_, rfl, rfl⟩, by decide +kernel, rfl⟩
  refine ⟨_, _, _, hload, rfl, by decide, ?_, ?_⟩
  · exact ⟨_, List.mem_cons_self, by decide +kernel⟩
  · exact ⟨_, List.mem_cons_of_mem _ List.mem_cons_self, by decide +kernel⟩

end Document

end Descriptor

end FunctionalOptions
