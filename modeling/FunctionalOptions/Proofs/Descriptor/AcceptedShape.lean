import FunctionalOptions.Proofs.Descriptor.Grammar
import FunctionalOptions.Proofs.Fallible

/-!
# Shapes That Are Accepted

An element is read as a shape exactly if it stands for the shape. One direction
follows the readers and notes what each of them has seen when it succeeds; the
other follows the grammar and goes through the readers once more. This is the
only place at which the readers of shapes are opened.

What a reader says of the contents of an element it says of the elements inside
those too, since the key and value of a map and the parameters of a function have
their types one level down. So the induction is on an element along with the
elements inside it.

## Main definitions

* `Sound`: If an element is read as a shape, it stands for the shape.

## Theorems

* `allMembers_of_memberNames`, `memberNames_of_allMembers`: The names of members
  are read wherever they stand.
* `of_readOnly`, `of_readMap`, `of_readParams`: What contents are if they are
  read.
* `readShapeElement_skipped`: Contents that mean nothing are passed over.
* `readShapeElement_eq_ok_iff`: An element is read as the shapes it stands for.
-/

namespace FunctionalOptions

namespace Descriptor

open Xml (Element Ending Holds Tag Wraps)

/-! ## Attributes and ends -/

theorem required_eq_ok_iff {tag : Tag} {element key value : String} :
    required tag element key = .ok value ↔ optional tag key = .ok (some value) := by
  rw [required, Except.bind_eq_ok_iff]
  constructor
  · rintro ⟨found, hfound, hvalue⟩
    cases found with
    | none => exact nomatch hvalue
    | some found =>
        cases hvalue
        exact hfound
  · intro h
    exact ⟨_, h, rfl⟩

theorem finish_eq_ok_iff {element : String} {ending : Ending} {done : Unit} :
    finish element ending = .ok done ↔ ending = .closed := by
  cases ending <;> simp [finish]

/-! ## Members -/

/-- The names of elements are those of members if the name of each is. -/
theorem allMembers_of_forall {context member : String} {elements : List Element}
    {names : List String}
    (hall : ∀ e ∈ elements, ∀ names, memberName context member e = .ok names →
      AllMembers member [e] names)
    (h : memberNames context member elements = .ok names) : AllMembers member elements names := by
  induction elements generalizing names with
  | nil =>
      rw [memberNames] at h
      cases h
      exact .nil
  | cons e rest ih =>
      rw [List.forall_mem_cons] at hall
      simp only [memberNames, Except.bind_eq_ok_iff] at h
      rcases h with ⟨first, hfirst, others, hothers, h⟩
      cases h
      exact (hall.1 first hfirst).append (ih hall.2 hothers)

/-- An element whose name is read is a member, with members inside. -/
theorem allMembers_of_memberName {context member : String} (e : Element) :
    ∀ names, memberName context member e = .ok names → AllMembers member [e] names := by
  induction e using Element.inductOn with
  | empty tag =>
      intro names h
      by_cases hmember : tag.name = member
      · simp only [memberName, if_pos hmember, Except.bind_eq_ok_iff, required_eq_ok_iff] at h
        rcases h with ⟨name, hname, h⟩
        cases h
        exact .single (.empty tag) hmember hname .nil
      · rw [memberName, if_neg hmember] at h
        cases h
  | node tag children ending ih =>
      intro names h
      by_cases hmember : tag.name = member
      · -- The names inside come behind its own, and they are those of members by the induction.
        simp only [memberName, if_pos hmember, Except.bind_eq_ok_iff, required_eq_ok_iff,
          finish_eq_ok_iff, exists_const] at h
        rcases h with ⟨name, hname, inner, hinner, rfl, h⟩
        cases h
        exact .single (.node tag children) hmember hname (allMembers_of_forall ih hinner)
      · rw [memberName, if_neg hmember] at h
        cases h

theorem allMembers_of_memberNames {context member : String} {elements : List Element}
    {names : List String} (h : memberNames context member elements = .ok names) :
    AllMembers member elements names :=
  allMembers_of_forall (fun e _ => allMembers_of_memberName e) h

/-- Members have their names read. -/
theorem memberNames_of_allMembers {context member : String} {elements : List Element}
    {names : List String} (h : AllMembers member elements names) :
    memberNames context member elements = .ok names := by
  induction h with
  | nil => rw [memberNames]
  | @cons e tag inside rest name inner others hholds hmember hname hinside _ ihInside ih =>
      have hrequired : required tag member "name" = .ok name := required_eq_ok_iff.mpr hname
      rw [memberNames, ih]
      cases hholds with
      | empty =>
          -- With nothing inside there are no names to come behind this one.
          cases hinside
          rw [memberName, if_pos hmember, hrequired]
          rfl
      | node =>
          rw [memberName, if_pos hmember, hrequired, ihInside]
          rfl

/-! ## Contents -/

/-- With a shape found, there is nothing more. -/
theorem of_readOnly_some {element : String} {found shape : Shape} {ending : Ending}
    {children : List Element} (h : readOnly element (some found) ending children = .ok shape) :
    ending = .closed ∧ children = [] ∧ found = shape := by
  cases children with
  | nil =>
      simp only [readOnly, Except.check_bind_eq_ok_iff, finish_eq_ok_iff] at h
      exact ⟨h.1, rfl, Except.ok.inj h.2⟩
  | cons e rest =>
      simp only [readOnly, Except.bind_eq_ok_iff] at h
      rcases h with ⟨_, _, h⟩
      cases h

/-- The contents that are read as one shape are one element. -/
theorem of_readOnly {element : String} {shape : Shape} {ending : Ending}
    {children : List Element} (h : readOnly element none ending children = .ok shape) :
    ending = .closed ∧ ∃ type, children = [type] ∧ readShapeElement type = .ok shape := by
  cases children with
  | nil =>
      simp only [readOnly, Except.check_bind_eq_ok_iff] at h
      cases h.2
  | cons e rest =>
      simp only [readOnly, Except.bind_eq_ok_iff] at h
      rcases h with ⟨found, hfound, h⟩
      -- With the first element read, nothing may come behind it.
      rcases of_readOnly_some h with ⟨hending, rfl, rfl⟩
      exact ⟨hending, e, rfl, hfound⟩

/-- One element is read as its shape. -/
theorem readOnly_single {element : String} {type : Element} {shape : Shape}
    (h : readShapeElement type = .ok shape) :
    readOnly element none .closed [type] = .ok shape := by
  rw [readOnly, h]
  show readOnly element (some shape) .closed [] = _
  rw [readOnly]
  rfl

/-- An element whose contents are read as one shape holds the element of the
    shape. -/
theorem wraps_of_readOnly {element name : String} {tag : Tag} {shape : Shape} {ending : Ending}
    {children : List Element} (hname : tag.name = name)
    (h : readOnly element none ending children = .ok shape) :
    ∃ type, Wraps name (.node tag children ending) tag type ∧
      readShapeElement type = .ok shape := by
  rcases of_readOnly h with ⟨rfl, type, rfl, htype⟩
  exact ⟨type, .intro type hname, htype⟩

/-- The elements give the shape of the key or the value of a map, where it is not
    found already. -/
inductive Gives (name : String) : Option Shape → List Element → Shape → Prop where
  | found (shape : Shape) : Gives name (some shape) [] shape
  | read {e type : Element} {tag : Tag} {shape : Shape} :
    Wraps name e tag type → readShapeElement type = .ok shape → Gives name none [e] shape

/-- The contents that are read as a map give a key and a value, in either
    order. -/
theorem of_readMap {key value : Option Shape} {ending : Ending} {children : List Element}
    {shape : Shape} (h : readMap key value ending children = .ok shape) :
    ending = .closed ∧ ∃ keyShape valueShape keys values, shape = .map keyShape valueShape ∧
      Gives "key" key keys keyShape ∧ Gives "value" value values valueShape ∧
        children.Perm (keys ++ values) := by
  induction children generalizing key value with
  | nil =>
      simp only [readMap, Except.check_bind_eq_ok_iff, finish_eq_ok_iff] at h
      rcases h with ⟨hending, h⟩
      -- Nothing is left, so both have to be found by now.
      cases key with
      | none => cases h
      | some key =>
          cases value with
          | none => cases h
          | some value =>
              cases h
              exact ⟨hending, key, value, [], [], rfl, .found key, .found value, .nil⟩
  | cons e rest ih =>
      cases e with
      | empty tag =>
          rw [readMap] at h
          cases h
      | node tag inside childEnding =>
          rw [readMap] at h
          by_cases hkey : tag.name = "key"
          · rw [if_pos hkey, Except.bind_eq_ok_iff] at h
            rcases h with ⟨found, hfound, h⟩
            rcases wraps_of_readOnly hkey hfound with ⟨type, hwraps, htype⟩
            cases key with
            | some key => cases h
            | none =>
                -- From here on the key is found, so no other element gives it.
                rcases ih h with ⟨hending, keyShape, valueShape, keys, values, hshape, hkeys,
                  hvalues, hperm⟩
                cases hkeys
                exact ⟨hending, found, valueShape, [_], values, hshape, .read hwraps htype,
                  hvalues, hperm.cons _⟩
          · rw [if_neg hkey] at h
            by_cases hvalue : tag.name = "value"
            · rw [if_pos hvalue, Except.bind_eq_ok_iff] at h
              rcases h with ⟨found, hfound, h⟩
              rcases wraps_of_readOnly hvalue hfound with ⟨type, hwraps, htype⟩
              cases value with
              | some value => cases h
              | none =>
                  rcases ih h with ⟨hending, keyShape, valueShape, keys, values, hshape, hkeys,
                    hvalues, hperm⟩
                  cases hvalues
                  rw [List.append_nil] at hperm
                  exact ⟨hending, keyShape, found, keys, [_], hshape, hkeys,
                    .read hwraps htype, (hperm.cons _).trans (List.perm_append_singleton _ keys).symm⟩
            · rw [if_neg hvalue] at h
              cases h

/-- A list of two is ordered in two ways. -/
theorem eq_or_eq_of_perm {α : Type} {a b : α} {l : List α} (h : l.Perm [a, b]) :
    l = [a, b] ∨ l = [b, a] := by
  obtain ⟨x, y, rfl⟩ := List.length_eq_two.mp h.length_eq
  have hx : x = a ∨ x = b := by
    simpa using h.subset List.mem_cons_self
  rcases hx with rfl | rfl
  · -- The first is settled, and the rest of one has only one order.
    left
    rw [List.singleton_perm_singleton.mp ((List.perm_cons x).mp h)]
  · right
    have hswap : [x, y].Perm [x, a] := h.trans (List.Perm.swap x a [])
    rw [List.singleton_perm_singleton.mp ((List.perm_cons x).mp hswap)]

/-- The elements of a key and a value are read as a map, in either order. -/
theorem readMap_wraps {keyElement valueElement keyType valueType : Element} {keyTag valueTag : Tag}
    {key value : Shape} {children : List Element} (hkey : Wraps "key" keyElement keyTag keyType)
    (hvalue : Wraps "value" valueElement valueTag valueType)
    (hkeyType : readShapeElement keyType = .ok key)
    (hvalueType : readShapeElement valueType = .ok value)
    (hperm : children.Perm [keyElement, valueElement]) :
    readMap none none .closed children = .ok (.map key value) := by
  have hne : ¬"value" = "key" := by
    decide
  cases hkey with | intro _ hkeyName =>
  cases hvalue with | intro _ hvalueName =>
  -- The reader takes the children as they come and remembers what it has found.
  rcases eq_or_eq_of_perm hperm with rfl | rfl
  · rw [readMap, if_pos hkeyName, readOnly_single hkeyType]
    show readMap (some key) none .closed [_] = _
    rw [readMap, hvalueName, if_neg hne, if_pos rfl, readOnly_single hvalueType]
    show readMap (some key) (some value) .closed [] = _
    rw [readMap]
    rfl
  · rw [readMap, hvalueName, if_neg hne, if_pos rfl, readOnly_single hvalueType]
    show readMap none (some value) .closed [_] = _
    rw [readMap, if_pos hkeyName, readOnly_single hkeyType]
    show readMap (some key) (some value) .closed [] = _
    rw [readMap]
    rfl

/-- The contents that are read as parameters and results are their elements. -/
theorem of_readParams {ending : Ending} {children : List Element}
    {params results : List (Param Shape)}
    (h : readParams ending children = .ok (params, results)) :
    ending = .closed ∧ ∃ slots : List Slot, children = slots.map Slot.element ∧
      (∀ slot ∈ slots, slot.Placed) ∧
        (∀ slot ∈ slots, readShapeElement slot.type = .ok slot.param.type) ∧
          params = Slot.params slots ∧ results = Slot.results slots := by
  induction children generalizing params results with
  | nil =>
      simp only [readParams, Except.check_bind_eq_ok_iff, finish_eq_ok_iff] at h
      rcases h with ⟨hending, h⟩
      cases h
      exact ⟨hending, [], rfl, List.forall_mem_nil _, List.forall_mem_nil _, rfl, rfl⟩
  | cons e rest ih =>
      cases e with
      | empty tag =>
          rw [readParams] at h
          cases h
      | node tag inside childEnding =>
          rw [readParams, Except.bind_eq_ok_iff] at h
          -- The name is read before it is known whether the element is a parameter or a result.
          rcases h with ⟨name, hname, h⟩
          by_cases hparam : tag.name = "param"
          · simp only [if_pos hparam, Except.bind_eq_ok_iff] at h
            rcases h with ⟨shape, hshape, ⟨others, moreResults⟩, hrest, h⟩
            cases h
            rcases wraps_of_readOnly hparam hshape with ⟨type, hwraps, htype⟩
            rcases ih hrest with ⟨hending, slots, rfl, hplaced, hread, rfl, rfl⟩
            exact ⟨hending, ⟨false, ⟨name, shape⟩, _, type⟩ :: slots, rfl,
              List.forall_mem_cons.mpr ⟨⟨tag, hwraps, hname⟩, hplaced⟩,
              List.forall_mem_cons.mpr ⟨htype, hread⟩, rfl, rfl⟩
          · rw [if_neg hparam] at h
            by_cases hresult : tag.name = "result"
            · simp only [if_pos hresult, Except.bind_eq_ok_iff] at h
              rcases h with ⟨shape, hshape, ⟨moreParams, others⟩, hrest, h⟩
              cases h
              rcases wraps_of_readOnly hresult hshape with ⟨type, hwraps, htype⟩
              rcases ih hrest with ⟨hending, slots, rfl, hplaced, hread, rfl, rfl⟩
              exact ⟨hending, ⟨true, ⟨name, shape⟩, _, type⟩ :: slots, rfl,
                List.forall_mem_cons.mpr ⟨⟨tag, hwraps, hname⟩, hplaced⟩,
                List.forall_mem_cons.mpr ⟨htype, hread⟩, rfl, rfl⟩
            · rw [if_neg hresult] at h
              cases h

/-- The elements of parameters and results are read as both, in any mixture. -/
theorem readParams_slots {slots : List Slot} (hplaced : ∀ slot ∈ slots, slot.Placed)
    (htypes : ∀ slot ∈ slots, readShapeElement slot.type = .ok slot.param.type) :
    readParams .closed (slots.map Slot.element) =
      .ok (Slot.params slots, Slot.results slots) := by
  induction slots with
  | nil =>
      rw [List.map_nil, readParams]
      rfl
  | cons slot slots ih =>
      rw [List.forall_mem_cons] at hplaced htypes
      rcases slot with ⟨isResult, ⟨name, shape⟩, element, type⟩
      rcases hplaced with ⟨⟨tag, hwraps, hname⟩, hplaced⟩
      -- The name of a slot is read before it is known which list it is for.
      have hrest := ih hplaced htypes.2
      have hne : ¬"result" = "param" := by
        decide
      cases isResult with
      | false =>
          have hwraps : Wraps "param" element tag type := hwraps
          cases hwraps with | intro _ htag =>
          rw [List.map_cons, readParams, hname]
          show (if _ then _ else _) = _
          rw [if_pos htag, readOnly_single htypes.1, hrest]
          rfl
      | true =>
          have hwraps : Wraps "result" element tag type := hwraps
          cases hwraps with | intro _ htag =>
          rw [List.map_cons, readParams, hname]
          show (if _ then _ else _) = _
          rw [htag, if_neg hne, if_pos rfl, readOnly_single htypes.1, hrest]
          rfl

/-! ## Shapes -/

/-- If the element is read as a shape, it stands for the shape. -/
def Sound (e : Element) : Prop :=
  ∀ shape, readShapeElement e = .ok shape → Fits AllMembers e shape

/-- An element that is one tag stands for what it is read as. -/
theorem sound_empty (tag : Tag) : Sound (.empty tag) := by
  intro shape h
  have hholds := Holds.empty tag
  rw [readShapeElement, readEmpty] at h
  cases hkind : Kind.ofWord? tag.name with
  | none =>
      rw [hkind] at h
      cases h
  | some kind =>
      have hname := (Kind.word_of_ofWord? hkind).symm
      rw [hkind] at h
      -- Kinds that need contents fail here, since one tag has none.
      cases kind with
      | basic =>
          simp only [Except.bind_eq_ok_iff, required_eq_ok_iff] at h
          rcases h with ⟨name, hvalue, h⟩
          cases h
          exact .basic hholds hname hvalue
      | named => exact .named hholds hname h
      | typeParam =>
          simp only [Except.bind_eq_ok_iff, required_eq_ok_iff] at h
          rcases h with ⟨name, hvalue, h⟩
          cases h
          exact .typeParam hholds hname hvalue
      | unsafePointer =>
          cases h
          exact .unsafePointer hholds hname
      | func =>
          simp only [Except.bind_eq_ok_iff] at h
          rcases h with ⟨variadic, hvariadic, h⟩
          cases h
          exact @Fits.func _ _ _ [] _ hholds hname hvariadic (List.forall_mem_nil _)
            (List.forall_mem_nil _)
      | interface =>
          cases h
          exact .interface hholds hname .nil
      | struct =>
          cases h
          exact .struct hholds hname .nil
      | array =>
          simp only [Except.bind_eq_ok_iff] at h
          rcases h with ⟨_, _, h⟩
          cases h
      | chan =>
          simp only [Except.bind_eq_ok_iff] at h
          rcases h with ⟨_, _, h⟩
          cases h
      | pointer => cases h
      | slice => cases h
      | map => cases h

/-- An element of two tags stands for what it is read as, if the same is so of
    the elements inside it and of those inside them. The latter are the types of
    the key and value of a map and of parameters and results. -/
theorem sound_node {tag : Tag} {children : List Element} {ending : Ending}
    (hchildren : ∀ c ∈ children, Sound c) (hinside : ∀ c ∈ children, ∀ d ∈ c.inside, Sound d) :
    Sound (.node tag children ending) := by
  intro shape h
  rw [readShapeElement] at h
  cases hkind : Kind.ofWord? tag.name with
  | none =>
      rw [hkind] at h
      cases h
  | some kind =>
      have hname := (Kind.word_of_ofWord? hkind).symm
      rw [hkind] at h
      cases kind with
      | basic =>
          simp only [Except.bind_eq_ok_iff, required_eq_ok_iff, finish_eq_ok_iff, exists_const] at h
          rcases h with ⟨name, hvalue, rfl, h⟩
          cases h
          exact .basic (.node tag children) hname hvalue
      | named =>
          simp only [Except.bind_eq_ok_iff, finish_eq_ok_iff, exists_const] at h
          rcases h with ⟨shape, hshape, rfl, h⟩
          cases h
          exact .named (.node tag children) hname hshape
      | typeParam =>
          simp only [Except.bind_eq_ok_iff, required_eq_ok_iff, finish_eq_ok_iff, exists_const] at h
          rcases h with ⟨name, hvalue, rfl, h⟩
          cases h
          exact .typeParam (.node tag children) hname hvalue
      | unsafePointer =>
          simp only [Except.check_bind_eq_ok_iff, finish_eq_ok_iff] at h
          rcases h with ⟨rfl, h⟩
          cases h
          exact .unsafePointer (.node tag children) hname
      | pointer =>
          simp only [Except.bind_eq_ok_iff] at h
          rcases h with ⟨elem, helem, h⟩
          cases h
          rcases wraps_of_readOnly hname helem with ⟨type, hwraps, htype⟩
          exact .pointer hwraps (hchildren type hwraps.mem_inside elem htype)
      | slice =>
          simp only [Except.bind_eq_ok_iff] at h
          rcases h with ⟨elem, helem, h⟩
          cases h
          rcases wraps_of_readOnly hname helem with ⟨type, hwraps, htype⟩
          exact .slice hwraps (hchildren type hwraps.mem_inside elem htype)
      | array =>
          simp only [Except.bind_eq_ok_iff] at h
          rcases h with ⟨len, hlen, elem, helem, h⟩
          cases h
          rcases wraps_of_readOnly hname helem with ⟨type, hwraps, htype⟩
          exact .array hwraps hlen (hchildren type hwraps.mem_inside elem htype)
      | chan =>
          simp only [Except.bind_eq_ok_iff] at h
          rcases h with ⟨dir, hdir, elem, helem, h⟩
          cases h
          rcases wraps_of_readOnly hname helem with ⟨type, hwraps, htype⟩
          exact .chan hwraps hdir (hchildren type hwraps.mem_inside elem htype)
      | map =>
          rcases of_readMap h with ⟨rfl, key, value, keys, values, rfl, hkeys, hvalues, hperm⟩
          -- Nothing was found before, so both have elements.
          cases hkeys with | @read keyElement keyType _ _ hkey hkeyType =>
          cases hvalues with | @read valueElement valueType _ _ hvalue hvalueType =>
          have hkeyMem : keyElement ∈ children := hperm.mem_iff.mpr (by simp)
          have hvalueMem : valueElement ∈ children := hperm.mem_iff.mpr (by simp)
          exact .map (.node tag children) hname hperm hkey hvalue
            (hinside _ hkeyMem keyType hkey.mem_inside key hkeyType)
            (hinside _ hvalueMem valueType hvalue.mem_inside value hvalueType)
      | func =>
          simp only [Except.bind_eq_ok_iff] at h
          rcases h with ⟨variadic, hvariadic, ⟨params, results⟩, hread, h⟩
          cases h
          rcases of_readParams hread with ⟨rfl, slots, rfl, hplaced, htypes, rfl, rfl⟩
          -- The type of a slot is inside the element of the slot.
          refine .func (.node tag _) hname hvariadic hplaced fun slot hslot => ?_
          rcases hplaced slot hslot with ⟨_, hwraps, _⟩
          exact hinside slot.element (List.mem_map_of_mem hslot) slot.type hwraps.mem_inside
            slot.param.type (htypes slot hslot)
      | interface =>
          simp only [Except.bind_eq_ok_iff, finish_eq_ok_iff, exists_const] at h
          rcases h with ⟨methods, hmethods, rfl, h⟩
          cases h
          exact .interface (.node tag children) hname (allMembers_of_memberNames hmethods)
      | struct =>
          simp only [Except.bind_eq_ok_iff, finish_eq_ok_iff, exists_const] at h
          rcases h with ⟨fields, hfields, rfl, h⟩
          cases h
          exact .struct (.node tag children) hname (allMembers_of_memberNames hfields)

/-- A name that is the word of a kind names it. -/
theorem Kind.ofWord?_of_eq (kind : Kind) {name : String} (h : name = kind.word) :
    Kind.ofWord? name = some kind :=
  h ▸ Kind.ofWord?_word kind

/-- The kinds that need no contents. -/
def childless : List Kind :=
  [.basic, .named, .func, .interface, .struct, .typeParam, .unsafePointer]

/-- An element without contents is read alike as one tag and as two, for the
    kinds that need no contents. -/
theorem readShapeElement_childless {tag : Tag} {kind : Kind}
    (hkind : Kind.ofWord? tag.name = some kind) (hchildless : kind ∈ childless) :
    readShapeElement (.node tag [] .closed) = readEmpty tag := by
  rw [readShapeElement, readEmpty, hkind]
  simp only [childless, List.mem_cons, List.not_mem_nil, or_false] at hchildless
  rcases hchildless with rfl | rfl | rfl | rfl | rfl | rfl | rfl
  · rfl
  · simp only [finish]
    cases readNamed tag <;> rfl
  · simp only [readParams, finish]
    cases readVariadic tag <;> rfl
  · simp only [memberNames]
    rfl
  · simp only [memberNames]
    rfl
  · rfl
  · rfl

/-- Contents that a kind does not need are read like none where there are none. -/
theorem readShapeElement_of_holds {e : Element} {tag : Tag} {inside : List Element} {kind : Kind}
    (h : Holds e tag inside) (hkind : Kind.ofWord? tag.name = some kind)
    (hchildless : kind ∈ childless) :
    readShapeElement e = readShapeElement (.node tag inside .closed) := by
  cases h with
  | empty => rw [readShapeElement, readShapeElement_childless hkind hchildless]
  | node => rfl

/-- Contents that mean nothing are passed over. -/
theorem readShapeElement_skipped {tag : Tag} (h : tag.name ∈ skipped) (inside : List Element) :
    readShapeElement (.node tag inside .closed) = readShapeElement (.empty tag) := by
  simp only [skipped, List.mem_cons, List.not_mem_nil, or_false] at h
  rw [readShapeElement, readShapeElement, readEmpty]
  -- For each of the four, the tag alone decides.
  rcases h with hname | hname | hname | hname
  · have hkind := Kind.ofWord?_of_eq .basic hname
    rw [hkind]
    rfl
  · have hkind := Kind.ofWord?_of_eq .named hname
    rw [hkind]
    show (readNamed tag).bind _ = readNamed tag
    cases readNamed tag <;> rfl
  · have hkind := Kind.ofWord?_of_eq .typeParam hname
    rw [hkind]
    rfl
  · have hkind := Kind.ofWord?_of_eq .unsafePointer hname
    rw [hkind]
    rfl

/-- An element is read as the shape it stands for. -/
theorem read_of_fits {e : Element} {shape : Shape} (h : Fits AllMembers e shape) :
    readShapeElement e = .ok shape := by
  induction h with
  | @basic _ tag _ _ hholds hname hvalue =>
      have hkind := Kind.ofWord?_of_eq .basic hname
      rw [readShapeElement_of_holds hholds hkind (by decide), readShapeElement, hkind]
      show (required tag "basic" "name").bind _ = _
      rw [required_eq_ok_iff.mpr hvalue]
      rfl
  | @named _ tag _ _ hholds hname hshape =>
      have hkind := Kind.ofWord?_of_eq .named hname
      rw [readShapeElement_of_holds hholds hkind (by decide), readShapeElement, hkind]
      show (readNamed tag).bind _ = _
      rw [hshape]
      rfl
  | @typeParam _ tag _ _ hholds hname hvalue =>
      have hkind := Kind.ofWord?_of_eq .typeParam hname
      rw [readShapeElement_of_holds hholds hkind (by decide), readShapeElement, hkind]
      show (required tag "typeParam" "name").bind _ = _
      rw [required_eq_ok_iff.mpr hvalue]
      rfl
  | @unsafePointer _ tag _ hholds hname =>
      have hkind := Kind.ofWord?_of_eq .unsafePointer hname
      rw [readShapeElement_of_holds hholds hkind (by decide), readShapeElement, hkind]
      rfl
  | @pointer _ _ tag _ hwraps _ ih =>
      cases hwraps with | intro _ hname =>
      have hkind := Kind.ofWord?_of_eq .pointer hname
      rw [readShapeElement, hkind]
      show (readOnly "pointer" none .closed [_]).bind _ = _
      rw [readOnly_single ih]
      rfl
  | @slice _ _ tag _ hwraps _ ih =>
      cases hwraps with | intro _ hname =>
      have hkind := Kind.ofWord?_of_eq .slice hname
      rw [readShapeElement, hkind]
      show (readOnly "slice" none .closed [_]).bind _ = _
      rw [readOnly_single ih]
      rfl
  | @array _ _ tag _ _ hwraps hlen _ ih =>
      cases hwraps with | intro _ hname =>
      have hkind := Kind.ofWord?_of_eq .array hname
      rw [readShapeElement, hkind]
      show (readLength tag).bind _ = _
      rw [hlen]
      show (readOnly "array" none .closed [_]).bind _ = _
      rw [readOnly_single ih]
      rfl
  | @chan _ _ tag _ _ hwraps hdir _ ih =>
      cases hwraps with | intro _ hname =>
      have hkind := Kind.ofWord?_of_eq .chan hname
      rw [readShapeElement, hkind]
      show (readDirection tag).bind _ = _
      rw [hdir]
      show (readOnly "chan" none .closed [_]).bind _ = _
      rw [readOnly_single ih]
      rfl
  | @map _ _ _ _ _ tag _ _ _ _ _ hholds hname hperm hkey hvalue _ _ ihKey ihValue =>
      have hkind := Kind.ofWord?_of_eq .map hname
      -- One tag holds no key and no value.
      cases hholds with
      | empty => exact absurd hperm.length_eq (by simp)
      | node =>
          rw [readShapeElement, hkind]
          exact readMap_wraps hkey hvalue ihKey ihValue hperm
  | @func _ tag _ _ hholds hname hvariadic hplaced _ ih =>
      have hkind := Kind.ofWord?_of_eq .func hname
      rw [readShapeElement_of_holds hholds hkind (by decide), readShapeElement, hkind]
      show (readVariadic tag).bind _ = _
      rw [hvariadic]
      show (readParams .closed _).bind _ = _
      rw [readParams_slots hplaced ih]
      rfl
  | @interface _ tag inside _ hholds hname hmembers =>
      have hkind := Kind.ofWord?_of_eq .interface hname
      rw [readShapeElement_of_holds hholds hkind (by decide), readShapeElement, hkind]
      show (memberNames "interface" "method" inside).bind _ = _
      rw [memberNames_of_allMembers hmembers]
      rfl
  | @struct _ tag inside _ hholds hname hmembers =>
      have hkind := Kind.ofWord?_of_eq .struct hname
      rw [readShapeElement_of_holds hholds hkind (by decide), readShapeElement, hkind]
      show (memberNames "struct" "member" inside).bind _ = _
      rw [memberNames_of_allMembers hmembers]
      rfl

/-- An element that is read as a shape stands for it. -/
theorem fits_of_read {e : Element} {shape : Shape} (h : readShapeElement e = .ok shape) :
    Fits AllMembers e shape := by
  -- The induction takes the elements inside along, for the next step needs them.
  have hsound : Sound e ∧ ∀ c ∈ e.inside, Sound c := by
    clear h shape
    induction e using Element.inductOn with
    | empty tag => exact ⟨sound_empty tag, List.forall_mem_nil _⟩
    | node tag children ending ih =>
        have hchildren : ∀ c ∈ children, Sound c := fun c hc => (ih c hc).1
        exact ⟨sound_node hchildren fun c hc => (ih c hc).2, hchildren⟩
  exact hsound.1 shape h

theorem readShapeElement_eq_ok_iff {e : Element} {shape : Shape} :
    readShapeElement e = .ok shape ↔ Fits AllMembers e shape :=
  ⟨fits_of_read, read_of_fits⟩

end Descriptor

end FunctionalOptions
