import FunctionalOptions.Proofs.Names.Derived
import FunctionalOptions.Proofs.Options.Functions

/-!
# Numbered Parameters

What the parameters of the functions of one model are called. A parameter whose
lowered name is free keeps it, and one whose name is reserved gets a number
behind it. The numbers count the reserved names that have come up in the run, and
nothing looks at the name that a number makes.

That such a name is free all the same, and no other field gets it, comes from
what is reserved: words of two letters or more without a digit in them, and one
name of at most two characters, the receiver. A number behind a word leads to no
word, and the receiver is too short to be a word with a number. So what a name and
a number are made of can be read off: if digits can be moved from the number to
the name, then there are none to move.

## Main definitions

* `ParameterNames.Reserved`: The name is a keyword, an alias type or the
  receiver.
* `Model.numbered`: The functions whose parameters have a number.

## Theorems

* `ParameterNames.eq_nil_of_reserved`: A reserved name with digits behind it is
  not reserved.
* `ParameterNames.number_eq_of_append_eq`: Different numbers behind reserved names
  make different names.
* `Model.parameter_of_functionsOf`, `Model.numbered_of_functionsOf`: What a run
  calls its parameters.
* `Model.functions_parameters`: What the parameters of a model are called.
-/

namespace FunctionalOptions

namespace ParameterNames

/-- The name is a keyword, an alias type or the name of the receiver. -/
def Reserved (receiver name : String) : Prop :=
  Go.isKeyword name = true ∨ name = "byte" ∨ name = "rune" ∨ name = receiver

instance (receiver name : String) : Decidable (Reserved receiver name) :=
  inferInstanceAs (Decidable (_ ∨ _))

/-- What collides when the receiver has been reserved is what is reserved. -/
theorem collides_reserve_iff (receiver name : String) :
    (fresh.reserve receiver).collides name = true ↔ Reserved receiver name := by
  simp only [collides, reserve, fresh, aliasTypes, Reserved, Bool.or_eq_true,
    List.contains_iff_mem, List.mem_cons, List.not_mem_nil, or_false, or_assoc]

/-! ## Reserved names with a number -/

/-- The words that collide from the start have two characters or more, and no digit
    among them. -/
theorem word_of_mem {name : String} (h : name ∈ Go.keywords ++ aliasTypes) :
    2 ≤ name.toList.length ∧ ∀ c ∈ name.toList, c.isDigit = false := by
  have hwords : (Go.keywords ++ aliasTypes).all (fun word =>
      decide (2 ≤ word.toList.length) && word.toList.all fun c => !c.isDigit) = true := by
    decide
  rcases Bool.and_eq_true_iff.mp (List.all_eq_true.mp hwords name h) with ⟨hlength, hdigits⟩
  refine ⟨of_decide_eq_true hlength, fun c hc => ?_⟩
  simpa only [Bool.not_eq_true'] using List.all_eq_true.mp hdigits c hc

/-- So has a reserved name, if it is not the receiver. -/
theorem word_of_reserved {receiver name : String} (h : Reserved receiver name)
    (hname : name ≠ receiver) : 2 ≤ name.toList.length ∧ ∀ c ∈ name.toList, c.isDigit = false := by
  refine word_of_mem ?_
  rcases h with hkeyword | rfl | rfl | hreceiver
  · exact List.mem_append_left _ (List.contains_iff_mem.mp hkeyword)
  · exact List.mem_append_right _ List.mem_cons_self
  · exact List.mem_append_right _ (List.mem_cons_of_mem _ List.mem_cons_self)
  · exact absurd hreceiver hname

section Receiver

variable {receiver : String} (hreceiver : receiver.toList.length ≤ 2) {name other : String}
  (hname : Reserved receiver name) (hother : Reserved receiver other)

include hreceiver hname hother

/-- A reserved name that consists of another one and digits is the other one. -/
theorem eq_nil_of_reserved {digits : List Char} (h : other.toList = name.toList ++ digits)
    (hdigits : ∀ c ∈ digits, c.isDigit = true) : digits = [] := by
  have hlength := congrArg List.length h
  rw [List.length_append] at hlength
  by_cases hshort : other = receiver
  · -- The receiver is as short as a word, and has no room for digits behind one.
    refine List.eq_nil_of_length_eq_zero ?_
    rw [hshort] at hlength
    by_cases hself : name = receiver
    · rw [hself] at hlength
      omega
    · have hword := (word_of_reserved hname hself).1
      omega
  · cases digits with
    | nil => rfl
    | cons c more =>
        -- Any other reserved name would have a digit in it.
        have hmem : c ∈ other.toList := by
          rw [h]
          exact List.mem_append_right _ List.mem_cons_self
        have hnot := (word_of_reserved hother hshort).2 c hmem
        rw [hdigits c List.mem_cons_self] at hnot
        exact absurd hnot.symm Bool.false_ne_true

omit hother in
/-- A reserved name with a number behind it is not reserved. -/
theorem not_reserved_append (i : Nat) : ¬Reserved receiver (name ++ toString i) := by
  intro hreserved
  exact Nat.toDigits_ne_nil (eq_nil_of_reserved hreceiver hname hreserved
    (Text.toList_append_toString name i) fun c hc =>
      Nat.isDigit_of_mem_toDigits (by decide) (by decide) hc)

/-- Different numbers behind reserved names make different names. -/
theorem number_eq_of_append_eq {i j : Nat} (h : name ++ toString i = other ++ toString j) :
    i = j := by
  -- If one number is longer, the rest of it belongs to a reserved name.
  rcases Text.append_toString_cases h with heq | ⟨m, rfl⟩ | ⟨m, rfl⟩
  · exact heq
  · exact absurd hother (not_reserved_append hreceiver hname m)
  · exact absurd hname (not_reserved_append hreceiver hother m)

end Receiver

/-! ## One field -/

variable (names : ParameterNames) (field : String)

/-- A field whose lowered name collides gets the next number. -/
theorem forField_of_collides (h : names.collides (Go.lowerFirst field) = true) :
    names.forField field = (Go.lowerFirst field ++ toString names.counter,
      { names with counter := names.counter + 1 }) := by
  unfold forField sanitize
  exact if_pos h

/-- A field whose lowered name is free keeps it. -/
theorem forField_of_free (h : names.collides (Go.lowerFirst field) = false) :
    names.forField field = (Go.lowerFirst field, names) := by
  unfold forField sanitize
  rw [h]
  rfl

/-- No field changes what collides. -/
theorem collides_forField : (names.forField field).2.collides = names.collides := by
  cases h : names.collides (Go.lowerFirst field) with
  | true =>
      rw [forField_of_collides names field h]
      rfl
  | false => rw [forField_of_free names field h]

end ParameterNames

namespace Model

/-! ## A run -/

section Run

variable {model : Model} {taken : List String} {names : ParameterNames}
  {fields : List Record.Field} {functions : List OptionFunction}

/-- A run gives every parameter the lowered name of its field, with a number
    behind it if the name collides. -/
theorem parameter_of_functionsOf
    (h : (model.functionsOf taken names fields).result = .ok functions) :
    ∀ f ∈ functions,
      (names.collides (Go.lowerFirst f.field) = false ∧ f.parameter = Go.lowerFirst f.field) ∨
      (names.collides (Go.lowerFirst f.field) = true ∧
        ∃ i : Nat, f.parameter = Go.lowerFirst f.field ++ toString i) := by
  induction fields generalizing taken names functions with
  | nil =>
      obtain rfl := Except.ok.inj h
      exact fun f hf => absurd hf List.not_mem_nil
  | cons field rest ih =>
      rcases (functionsOf_cons_eq_ok_iff _ _ _ _ _ _).mp h with ⟨-, type, others, -, hrest, rfl⟩
      intro f hf
      rcases List.mem_cons.mp hf with rfl | hf
      · unfold functionFor
        cases hcollides : names.collides (Go.lowerFirst field.name) with
        | true =>
            rw [ParameterNames.forField_of_collides _ _ hcollides]
            exact Or.inr ⟨rfl, names.counter, rfl⟩
        | false =>
            rw [ParameterNames.forField_of_free _ _ hcollides]
            exact Or.inl ⟨rfl, rfl⟩
      · have hf := ih hrest f hf
        -- What collides is the same for the rest of the run.
        rwa [ParameterNames.collides_forField] at hf

/-- The numbers behind the parameters of a run go up by one from the counter. -/
theorem numbered_of_functionsOf
    (h : (model.functionsOf taken names fields).result = .ok functions) :
    (functions.filter fun f => names.collides (Go.lowerFirst f.field)).map (·.parameter) =
      (functions.filter fun f => names.collides (Go.lowerFirst f.field)).mapIdx fun i f =>
        Go.lowerFirst f.field ++ toString (names.counter + i) := by
  induction fields generalizing taken names functions with
  | nil =>
      obtain rfl := Except.ok.inj h
      rfl
  | cons field rest ih =>
      rcases (functionsOf_cons_eq_ok_iff _ _ _ _ _ _).mp h with ⟨-, type, others, -, hrest, rfl⟩
      have hothers := ih hrest
      rw [ParameterNames.collides_forField] at hothers
      have hhead : names.collides (Go.lowerFirst (functionFor model names field type).field) =
          names.collides (Go.lowerFirst field.name) := rfl
      rw [List.filter_cons, hhead]
      cases hcollides : names.collides (Go.lowerFirst field.name) with
      | true =>
          -- This field has taken the number that the counter stood at.
          have hparameter : (functionFor model names field type).parameter =
              Go.lowerFirst field.name ++ toString names.counter := by
            unfold functionFor
            rw [ParameterNames.forField_of_collides _ _ hcollides]
          rw [ParameterNames.forField_of_collides _ _ hcollides] at hothers
          rw [if_pos rfl, List.map_cons, List.mapIdx_cons, hparameter, hothers]
          simp only [Nat.add_zero, functionFor, Nat.add_assoc, Nat.add_comm 1]
      | false =>
          rw [ParameterNames.forField_of_free _ _ hcollides] at hothers
          rw [if_neg Bool.false_ne_true, hothers]

end Run

/-! ## The parameters of a model -/

/-- The functions of a model whose parameters have a number, because the lowered
    names of their fields are reserved. -/
def numbered (model : Model) (functions : List OptionFunction) : List OptionFunction :=
  functions.filter fun f => ParameterNames.Reserved model.receiver (Go.lowerFirst f.field)

variable {model : Model} {functions : List OptionFunction}

/-- The lowered name of a field collides at the beginning of the run for a model
    when it is reserved. -/
theorem numbered_eq_filter : model.numbered functions = functions.filter fun f =>
    (ParameterNames.fresh.reserve model.receiver).collides (Go.lowerFirst f.field) := by
  refine List.filter_congr fun f _ => Bool.eq_iff_iff.mpr ?_
  rw [decide_eq_true_iff, ParameterNames.collides_reserve_iff]

/-- The parameter of a function is the lowered name of its field, with a number
    behind it if the name is reserved. -/
theorem parameter_of_functions (h : model.functions.result = .ok functions) :
    ∀ f ∈ functions,
      (¬ParameterNames.Reserved model.receiver (Go.lowerFirst f.field) ∧
        f.parameter = Go.lowerFirst f.field) ∨
      (ParameterNames.Reserved model.receiver (Go.lowerFirst f.field) ∧
        ∃ i : Nat, f.parameter = Go.lowerFirst f.field ++ toString i) := by
  intro f hf
  rcases parameter_of_functionsOf h f hf with ⟨hfree, hparameter⟩ | ⟨hcollides, hparameter⟩
  · refine Or.inl ⟨fun hreserved => ?_, hparameter⟩
    rw [(ParameterNames.collides_reserve_iff _ _).mpr hreserved] at hfree
    exact absurd hfree.symm Bool.false_ne_true
  · exact Or.inr ⟨(ParameterNames.collides_reserve_iff _ _).mp hcollides, hparameter⟩

/-- The receiver of a model has two characters at most, like every lowered first
    character. -/
theorem length_receiver_le (model : Model) : model.receiver.toList.length ≤ 2 :=
  Go.length_lowerInitial_le model.record.name

/-- No parameter has a reserved name. -/
theorem parameter_not_reserved (h : model.functions.result = .ok functions) :
    ∀ f ∈ functions, ¬ParameterNames.Reserved model.receiver f.parameter := by
  intro f hf
  rcases parameter_of_functions h f hf with ⟨hfree, hparameter⟩ | ⟨hreserved, i, hparameter⟩
  · rwa [hparameter]
  · rw [hparameter]
    exact ParameterNames.not_reserved_append model.length_receiver_le hreserved i

/-- There is a function for every selected field, in order. No parameter is a
    keyword, an alias type or the receiver. The parameters whose lowered field
    names are reserved have the numbers from zero behind them, in the order of the
    fields, and are different from each other; all other parameters are the lowered
    names of their fields. -/
theorem functions_parameters (h : model.functions.result = .ok functions) :
    functions.map (·.field) = model.selected.map (·.name) ∧
    (∀ f ∈ functions, Go.isKeyword f.parameter = false ∧ f.parameter ≠ "byte" ∧
      f.parameter ≠ "rune" ∧ f.parameter ≠ model.receiver) ∧
    (model.numbered functions).map (·.parameter) =
      (model.numbered functions).mapIdx (fun i f => Go.lowerFirst f.field ++ toString i) ∧
    ((model.numbered functions).map (·.parameter)).Nodup ∧
    ∀ f ∈ functions, f ∉ model.numbered functions → f.parameter = Go.lowerFirst f.field := by
  have hnumbers : (model.numbered functions).map (·.parameter) =
      (model.numbered functions).mapIdx (fun i f => Go.lowerFirst f.field ++ toString i) := by
    rw [numbered_eq_filter, numbered_of_functionsOf h]
    simp only [ParameterNames.reserve, ParameterNames.fresh, Nat.zero_add]
  refine ⟨?_, fun f hf => ?_, hnumbers, ?_, fun f hf hother => ?_⟩
  · exact model.map_eq_of_functionsOf _ _ (fun _ _ hemit => hemit.field_eq) h
  · have hfree := parameter_not_reserved h f hf
    unfold ParameterNames.Reserved at hfree
    simpa only [not_or, Bool.not_eq_true] using hfree
  · -- The same parameter has the same number behind it, and comes at the same place.
    rw [hnumbers, List.Nodup, List.pairwise_iff_getElem]
    intro i j hi hj hlt heq
    rw [List.getElem_mapIdx, List.getElem_mapIdx] at heq
    have hreserved : ∀ f ∈ model.numbered functions,
        ParameterNames.Reserved model.receiver (Go.lowerFirst f.field) := fun f hf =>
      of_decide_eq_true (List.mem_filter.mp hf).2
    have hnumber := ParameterNames.number_eq_of_append_eq model.length_receiver_le
      (hreserved _ (List.getElem_mem _)) (hreserved _ (List.getElem_mem _)) heq
    omega
  · rcases parameter_of_functions h f hf with ⟨-, hparameter⟩ | ⟨hreserved, -⟩
    · exact hparameter
    · exact absurd (List.mem_filter.mpr ⟨hf, decide_eq_true hreserved⟩) hother

/-- A model in which a keyword, an alias type and the receiver come up as
    lowered names of fields. -/
def loom : Model :=
  .of {} ⟨"example.com/loom", "loom"⟩ ⟨"Loom",
    [⟨"For", .predeclared "int", false⟩, ⟨"width", .predeclared "int", false⟩,
      ⟨"L", .predeclared "string", false⟩, ⟨"Byte", .predeclared "byte", false⟩]⟩

theorem functions_parameters_loom :
    ∃ functions, loom.functions.result = .ok functions ∧
      functions.map (·.parameter) = ["for0", "width", "l1", "byte2"] ∧
      (∀ f ∈ functions, Go.isKeyword f.parameter = false ∧ f.parameter ≠ "byte" ∧
        f.parameter ≠ "rune" ∧ f.parameter ≠ loom.receiver) ∧
      ((loom.numbered functions).map (·.parameter)).Nodup := by
  have hparameters : loom.functions.result.toOption.map (·.map (·.parameter)) =
      some ["for0", "width", "l1", "byte2"] := by
    decide
  cases hfunctions : loom.functions.result with
  | error _ =>
      rw [hfunctions] at hparameters
      exact nomatch hparameters
  | ok functions =>
      rw [hfunctions] at hparameters
      rcases functions_parameters hfunctions with ⟨-, hfree, -, hnodup, -⟩
      exact ⟨functions, rfl, Option.some.inj hparameters, hfree, hnodup⟩

end Model

end FunctionalOptions
