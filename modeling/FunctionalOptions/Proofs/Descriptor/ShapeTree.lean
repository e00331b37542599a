import FunctionalOptions.Descriptor.Json.Check
import FunctionalOptions.Descriptor.Json.Shape
import FunctionalOptions.Proofs.Descriptor.Written
import FunctionalOptions.Proofs.Json.Nesting

/-!
# Reading the Trees of Shapes

The tree of a shape is gone through twice, once to check its text and once to
interpret it. Both passes meet members by name, and both are content with the
tree that writing leads to, provided it does not nest too deep.

Interpreting goes down one level of the tree with every level of the shape, so
the induction is on the depth that is left. What a single level comes to, given
that the parts are read, is a statement without recursion, and the only one
that looks at the kinds one by one.

## Theorems

* `check_eq_ok`: A written tree that does not nest too deep passes the check.
* `unique?_entries`: Members of different names are found by name.
* `Shape.checkTagged_toTree`: The tree of a shape passes the check.
* `Shape.ofFields?_fieldTrees`: The fields of a shape are read if its parts are.
* `Shape.ofTree?_toTree`: A shape is read from its tree.
-/

namespace FunctionalOptions

namespace Descriptor

open Json (Written entry nesting_arr_le_iff nesting_obj_le_iff)

/-! ## Checking -/

theorem checkItems_eq_ok {depth : Nat} {items : List Json}
    (h : ∀ item ∈ items, check depth item = .ok ()) : checkItems depth items = .ok () := by
  induction items with
  | nil => rw [checkItems]
  | cons item rest ih =>
      rw [checkItems, h item List.mem_cons_self]
      exact ih fun other hother => h other (List.mem_cons_of_mem item hother)

theorem checkMembers_eq_ok {depth : Nat} {members : List (String × Json)}
    (h : ∀ member ∈ members, check depth member.2 = .ok ()) :
    checkMembers depth (members.map entry) = .ok () := by
  induction members with
  | nil => rw [List.map_nil, checkMembers]
  | cons member rest ih =>
      rw [List.map_cons, checkMembers, entry, checkMember, h member List.mem_cons_self]
      exact ih fun other hother => h other (List.mem_cons_of_mem member hother)

/-- A written tree that does not nest too deep passes the check. -/
theorem check_eq_ok {tree : Json} (h : Written tree) {depth : Nat}
    (hdepth : tree.nesting ≤ depth) : check depth tree = .ok () := by
  -- Every container uses up one level, in the bound and in the tree.
  induction h generalizing depth with
  | null => rw [check]
  | bool value => rw [check]
  | ofNat h => rw [Json.ofNat, check, Json.inRange_ofNat h, if_pos rfl]
  | str text => rw [Json.str, check]
  | arr _ ih =>
      rcases nesting_arr_le_iff.mp hdepth with ⟨inside, rfl, hitems⟩
      rw [Json.arr, check, checkItems_eq_ok fun item hitem => ih item hitem (hitems item hitem)]
      rfl
  | obj _ ih =>
      rcases nesting_obj_le_iff.mp hdepth with ⟨inside, rfl, hmembers⟩
      rw [Json.obj_eq, check,
        checkMembers_eq_ok fun member hmember => ih member hmember (hmembers member hmember)]
      rfl

/-- Fields that pass the check and are not taken for a kind leave a shape whose
    kind has been seen. -/
theorem checkTaggedMembers_eq_ok {depth : Nat} {fields : List (String × Json)}
    (hnames : "kind" ∉ fields.map Prod.fst)
    (h : ∀ field ∈ fields, check depth field.2 = .ok ()) :
    checkTaggedMembers depth true none (fields.map entry) = .ok () := by
  induction fields with
  | nil => rfl
  | cons field rest ih =>
      rw [List.map_cons, List.mem_cons, not_or] at hnames
      rw [List.map_cons, entry, checkTaggedMembers, if_neg (Ne.symm hnames.1),
        h field List.mem_cons_self]
      exact ih hnames.2 fun other hother => h other (List.mem_cons_of_mem field hother)

/-- A bound on the tree of a shape leaves one less for its fields. -/
theorem Shape.nesting_fields (shape : Shape) {depth : Nat}
    (h : shape.toTree.nesting ≤ depth) :
    ∃ inside, depth = inside + 1 ∧ ∀ field ∈ shape.fieldTrees, field.2.nesting ≤ inside := by
  rw [toTree_eq, tree] at h
  rcases nesting_obj_le_iff.mp h with ⟨inside, hdepth, hmembers⟩
  exact ⟨inside, hdepth, (List.forall_mem_cons.mp hmembers).2⟩

/-- The text of the tree of a shape is in order if it does not nest too deep. -/
theorem Shape.checkTagged_toTree (shape : Shape) {depth : Nat}
    (hdepth : shape.toTree.nesting ≤ depth) : checkTagged depth shape.toTree = .ok () := by
  have hwritten := shape.written_fieldTrees
  have hnames := (List.nodup_cons.mp shape.nodup_names).1
  rcases shape.nesting_fields hdepth with ⟨inside, rfl, hfields⟩
  have hkind : checkKind (.str shape.kind.word) = .ok () := by
    rw [Json.str, checkKind, Kind.ofWord?_word]
    rfl
  have hrest := checkTaggedMembers_eq_ok hnames fun field hfield =>
    check_eq_ok (hwritten field hfield) (hfields field hfield)
  rw [toTree_eq, tree, Json.obj_eq, checkTagged, List.map_cons, entry, checkTaggedMembers,
    if_pos rfl, if_neg Bool.false_ne_true, hkind]
  exact hrest

/-! ## Members by name -/

/-- No member has a name that is not among their names. -/
theorem filter_entries_absent {name : String} {members : List (String × Json)}
    (h : name ∉ members.map Prod.fst) :
    (members.map entry).filter (·.1 == some name) = [] ∧
      (members.map entry).filter (·.1 != some name) = members.map entry := by
  -- Both filters ask the same question of every member.
  have hne : ∀ member ∈ members, (entry member).1 ≠ some name := by
    intro member hmember hname
    exact h (Option.some.inj hname ▸ List.mem_map_of_mem hmember)
  constructor
  · rw [List.filter_eq_nil_iff]
    intro e he
    rcases List.mem_map.mp he with ⟨member, hmember, rfl⟩
    exact fun hname => hne member hmember (beq_iff_eq.mp hname)
  · rw [List.filter_eq_self]
    intro e he
    rcases List.mem_map.mp he with ⟨member, hmember, rfl⟩
    exact bne_iff_ne.mpr (hne member hmember)

/-- Among members of different names, the value of a name is the first one. -/
theorem unique?_entries {members : List (String × Json)} (h : (members.map Prod.fst).Nodup)
    (name : String) : unique? name (members.map entry) = some (members.lookup name) := by
  induction members with
  | nil => rfl
  | cons member rest ih =>
      rw [List.map_cons, List.nodup_cons] at h
      by_cases hname : name = member.1
      · -- The name comes up here, and so not again in the rest.
        have hrest := (filter_entries_absent h.1).1
        rw [List.map_cons, unique?, List.filter_cons_of_pos (by rw [entry, hname, beq_self_eq_true]),
          hname, hrest, List.lookup_cons_self]
        rfl
      · have hskip : ¬((entry member).1 == some name) = true := by
          rw [beq_iff_eq, entry, Option.some.injEq]
          exact Ne.symm hname
        rw [List.map_cons, unique?,
          List.filter_cons_of_neg (p := fun e : Option String × Json => e.1 == some name) hskip,
          List.lookup_cons, beq_false_of_ne hname]
        exact ih h.2

/-- The fields of an object whose members have different names are looked up
    one by one. -/
theorem Contents.fields?_entries {members : List (String × Json)}
    (h : (members.map Prod.fst).Nodup) (names : List String) :
    (Contents.members (members.map entry)).fields? names = some (names.map (members.lookup ·)) := by
  have hlookup : (fun name => unique? name (members.map entry)) =
      fun name => some (members.lookup name) := funext (unique?_entries h)
  rw [Contents.fields?, hlookup]
  exact List.mapM_pure

/-- The kind of the tree of a shape, and its fields. -/
theorem Shape.tagged?_toTree (shape : Shape) :
    tagged? shape.toTree = some (shape.kind, .members (shape.fieldTrees.map entry)) := by
  have hdistinct : ((("kind", Json.str shape.kind.word) :: shape.fieldTrees).map Prod.fst).Nodup :=
    shape.nodup_names
  -- The kind is found by its name, and the filter that takes it out leaves the
  -- fields as they are.
  have hkind := unique?_entries hdistinct "kind"
  have hothers := (filter_entries_absent (List.nodup_cons.mp shape.nodup_names).1).2
  rw [List.lookup_cons_self] at hkind
  rw [toTree_eq, tree, Json.obj_eq, tagged?, contents?]
  simp only [hkind]
  rw [List.map_cons, List.filter_cons_of_neg Bool.false_ne_true, hothers, Json.str, kind?,
    Kind.ofWord?_word]
  rfl

/-! ## Values -/

/-- What is written one by one is read one by one. -/
theorem mapM_map_eq_some {α β : Type} {write : α → β} {read? : β → Option α} {values : List α}
    (h : ∀ value ∈ values, read? (write value) = some value) :
    (values.map write).mapM read? = some values := by
  induction values with
  | nil => rfl
  | cons value rest ih =>
      rw [List.map_cons, List.mapM_cons, h value List.mem_cons_self,
        ih fun other hother => h other (List.mem_cons_of_mem value hother)]
      rfl

/-- A package is read from its tree. -/
theorem Package.ofTree?_toTree (package : Package) : ofTree? package.toTree = some package := by
  rcases package with ⟨path, _ | name⟩
  · rfl
  · rfl

/-- A list of texts is read from its tree. -/
theorem list?_textsTree (texts : List String) : list? text? (textsTree texts) = some texts :=
  mapM_map_eq_some fun _ _ => rfl

/-- A length is read from its tree. -/
theorem length?_ofNat (len : UInt64) : length? (.ofNat len.toNat) = some len := by
  rw [Json.ofNat, length?, Json.natural?_ofNat len.toNat_lt, Option.map_some, UInt64.ofNat_toNat]

/-- A direction is read from its word. -/
theorem direction?_word (dir : Go.Direction) : direction? (.str dir.word) = some dir := by
  cases dir <;> decide

section Parameters

variable {shape? : Json → Option Shape}

/-- A parameter is read from its tree if its type is. -/
theorem Param.ofTree?_paramTree {p : Param Shape} (h : shape? p.type.toTree = some p.type) :
    Param.ofTree? shape? (Shape.paramTree p) = some p := by
  rcases p with ⟨_ | name, type⟩
  · rw [Shape.paramTree]
    show (shape? type.toTree).bind (fun type => some (Param.mk none type)) = _
    rw [h]
    rfl
  · rw [Shape.paramTree]
    show (shape? type.toTree).bind (fun type => some (Param.mk (some name) type)) = _
    rw [h]
    rfl

/-- Parameters are read from their trees if their types are. -/
theorem list?_paramTrees {params : List (Param Shape)}
    (h : ∀ p ∈ params, shape? p.type.toTree = some p.type) :
    list? (Param.ofTree? shape?) (.arr (params.map Shape.paramTree)) = some params :=
  mapM_map_eq_some fun p hp => Param.ofTree?_paramTree (h p hp)

end Parameters

/-! ## Shapes -/

/-- Reading the tree of a shape comes to reading the fields of its kind. -/
theorem Shape.ofTree?_succ (shape : Shape) (depth : Nat) :
    ofTree? (depth + 1) shape.toTree = ofFields? (ofTree? depth) shape.kind
      (shape.kind.fieldNames.map (shape.fieldTrees.lookup ·)) := by
  have hfields := Contents.fields?_entries (List.nodup_cons.mp shape.nodup_names).2
    shape.kind.fieldNames
  rw [ofTree?, shape.tagged?_toTree]
  show ((Contents.members _).fields? _).bind _ = _
  rw [hfields]
  rfl

/-- The fields of a shape are read if its parts are. -/
theorem Shape.ofFields?_fieldTrees {shape? : Json → Option Shape} {shape : Shape}
    (h : ∀ part ∈ shape.parts, shape? part.toTree = some part) :
    ofFields? shape? shape.kind (shape.kind.fieldNames.map (shape.fieldTrees.lookup ·)) =
      some shape := by
  cases shape with
  | named package name =>
      cases package with
      | none => rfl
      | some package =>
          -- A package is an object, so it is not taken for an absent one.
          have hpackage : optional? Package.ofTree? package.toTree = some (some package) := by
            rw [Package.toTree, Json.obj_eq, optional?, ← Json.obj_eq, ← Package.toTree,
              package.ofTree?_toTree, Option.map_some]
            exact Json.noConfusion
          exact Option.bind_eq_some_iff.mpr ⟨some package, hpackage, rfl⟩
  | pointer elem =>
      have helem : shape? elem.toTree = some elem := h elem List.mem_cons_self
      exact Option.bind_eq_some_iff.mpr ⟨elem, helem, rfl⟩
  | array len elem =>
      have helem : shape? elem.toTree = some elem := h elem List.mem_cons_self
      exact Option.bind_eq_some_iff.mpr
        ⟨len, length?_ofNat len, Option.bind_eq_some_iff.mpr ⟨elem, helem, rfl⟩⟩
  | slice elem =>
      have helem : shape? elem.toTree = some elem := h elem List.mem_cons_self
      exact Option.bind_eq_some_iff.mpr ⟨elem, helem, rfl⟩
  | chan dir elem =>
      have helem : shape? elem.toTree = some elem := h elem List.mem_cons_self
      exact Option.bind_eq_some_iff.mpr
        ⟨dir, direction?_word dir, Option.bind_eq_some_iff.mpr ⟨elem, helem, rfl⟩⟩
  | map key value =>
      have hkey : shape? key.toTree = some key := h key List.mem_cons_self
      have hvalue : shape? value.toTree = some value :=
        h value (List.mem_cons_of_mem key List.mem_cons_self)
      exact Option.bind_eq_some_iff.mpr
        ⟨key, hkey, Option.bind_eq_some_iff.mpr ⟨value, hvalue, rfl⟩⟩
  | func params results variadic =>
      rcases List.forall_mem_append.mp h with ⟨hparams, hresults⟩
      have hparams := list?_paramTrees fun p hp => hparams p.type (List.mem_map_of_mem hp)
      have hresults := list?_paramTrees fun p hp => hresults p.type (List.mem_map_of_mem hp)
      exact Option.bind_eq_some_iff.mpr
        ⟨params, hparams, Option.bind_eq_some_iff.mpr ⟨results, hresults, rfl⟩⟩
  | interface methods =>
      exact Option.bind_eq_some_iff.mpr ⟨methods, list?_textsTree methods, rfl⟩
  | struct fields => exact Option.bind_eq_some_iff.mpr ⟨fields, list?_textsTree fields, rfl⟩
  | basic name => rfl
  | typeParam name => rfl
  | unsafePointer => rfl

/-- The types of parameters nest within the bound on the parameters. -/
theorem Shape.nesting_paramTrees {params : List (Param Shape)} {depth : Nat}
    (h : (Json.arr (params.map paramTree)).nesting ≤ depth) :
    ∀ p ∈ params, p.type.toTree.nesting ≤ depth := by
  intro p hp
  rcases nesting_arr_le_iff.mp h with ⟨inList, rfl, hitems⟩
  have hparam := List.forall_mem_map.mp hitems p hp
  rw [paramTree] at hparam
  rcases nesting_obj_le_iff.mp hparam with ⟨inParam, rfl, hmembers⟩
  have htype := hmembers _ (List.mem_append_right _ List.mem_cons_self)
  exact Nat.le_trans htype (by omega)

/-- The parts of a shape nest within the bound on its fields. -/
theorem Shape.nesting_parts {shape : Shape} {depth : Nat}
    (h : ∀ field ∈ shape.fieldTrees, field.2.nesting ≤ depth) :
    ∀ part ∈ shape.parts, part.toTree.nesting ≤ depth := by
  cases shape with
  | pointer elem => exact List.forall_mem_singleton.mpr (h _ List.mem_cons_self)
  | array len elem =>
      exact List.forall_mem_singleton.mpr (h _ (List.mem_cons_of_mem _ List.mem_cons_self))
  | slice elem => exact List.forall_mem_singleton.mpr (h _ List.mem_cons_self)
  | chan dir elem =>
      exact List.forall_mem_singleton.mpr (h _ (List.mem_cons_of_mem _ List.mem_cons_self))
  | map key value =>
      have hkey := h _ List.mem_cons_self
      have hvalue := h _ (List.mem_cons_of_mem _ List.mem_cons_self)
      exact List.forall_mem_cons.mpr ⟨hkey, List.forall_mem_singleton.mpr hvalue⟩
  | func params results variadic =>
      have hparams := nesting_paramTrees (h _ List.mem_cons_self)
      have hresults := nesting_paramTrees (h _ (List.mem_cons_of_mem _ List.mem_cons_self))
      exact List.forall_mem_append.mpr
        ⟨List.forall_mem_map.mpr hparams, List.forall_mem_map.mpr hresults⟩
  | _ => exact fun part hpart => absurd hpart List.not_mem_nil

/-- A shape is read from its tree if that does not nest too deep. -/
theorem Shape.ofTree?_toTree (shape : Shape) {depth : Nat}
    (hdepth : shape.toTree.nesting ≤ depth) : ofTree? depth shape.toTree = some shape := by
  induction depth generalizing shape with
  | zero =>
      -- A shape is an object at least.
      rcases shape.nesting_fields hdepth with ⟨inside, hinside, -⟩
      cases hinside
  | succ depth ih =>
      rcases shape.nesting_fields hdepth with ⟨inside, hinside, hfields⟩
      cases hinside
      rw [ofTree?_succ]
      exact ofFields?_fieldTrees fun part hpart => ih part (nesting_parts hfields part hpart)

end Descriptor

end FunctionalOptions
