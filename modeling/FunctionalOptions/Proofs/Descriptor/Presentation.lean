import FunctionalOptions.Proofs.Descriptor.Alike

/-!
# Documents That Say the Same

Of two structures that say the same, the second one is read as what the first one is read as. This
is so for the four structures that are read in one pass, and for packages, parameters and the
fields of shapes, which are read by name from values that have been gathered before. A structure
that is written as an array says the same when one of its items is put into other words.

Each field asks for the same two things: that its reader keeps what it reads, and that the default
is read as the one that is filled in.

## Main definitions

* `Alike`: Two structures, or lists, of which one says in one place what the other says there in
  other words.

## Theorems

* `Role.nodup_places`: No two places of a structure have the same name.
* `Alike.opens`, `Alike.fields?`: The members and fields of structures that say the same.
* `Alike.readPackageTree`, `Alike.readFieldTree`, `Alike.readRecordTree`,
  `Alike.readDocumentTree`: Structures read in one pass.
* `Alike.packageOfTree?`, `Alike.paramOfTree?`: Structures read by name.
* `FieldsAlike.ofFields?`: The fields of a shape.
-/

namespace FunctionalOptions

namespace Descriptor

open Json (Failure)

/-! ## Structures in other words -/

/-- No two places of a structure have the same name. -/
theorem Role.nodup_places (role : Role) (contents : Contents) :
    ((role.places contents).map Place.name).Nodup := by
  cases role with
  | shape =>
      rw [Role.places]
      cases kindOf? contents with
      | none => decide
      | some kind => cases kind <;> decide
  | list items => exact .nil
  | _ => simp [Role.places]

theorem Role.ofItem_eq {role : Role} (h : role.isStructure) (items : List Json) (index : Nat) :
    role.ofItem items index = roleAt (role.places (.items items)) index := by
  cases role with
  | list items => cases h
  | other => cases h
  | _ => rfl

/-- Two structures, or lists, of which one says in one place what the other says there in
    other words. -/
inductive Alike (role : Role) : Json → Json → Prop where
  | object {members others : List (Option String × Json)} :
    MembersAlike (role.places (.members members)) members others →
    Alike role (.object members none) (.object others none)
  | array {before after : List Json} {value other : Json} :
    Kept (role.ofItem (before ++ value :: after) before.length) value other →
    Alike role (.array (before ++ value :: after) none) (.array (before ++ other :: after) none)

/-- An item in other words is a member in other words. -/
theorem membersAlike_zip {places : List Place} (hnames : (places.map Place.name).Nodup)
    {before after : List Json} {value other : Json}
    (hkept : Kept (roleAt places before.length) value other)
    (hlength : (before ++ value :: after).length ≤ (places.map Place.name).length) :
    MembersAlike places (((places.map Place.name).map some).zip (before ++ value :: after))
      (((places.map Place.name).map some).zip (before ++ other :: after)) := by
  have hindex : before.length < places.length := by
    simp at hlength
    omega
  -- The place of the value is the only one of its name.
  have hrole : ∀ place ∈ places, some places[before.length].name = some place.name →
      place.role = roleAt places before.length := by
    intro place hplace hname
    rw [List.inj_on_of_nodup_map hnames hplace (List.getElem_mem hindex)
      (Option.some.inj hname).symm, roleAt, List.getElem?_eq_getElem hindex]
    rfl
  -- Split at the item, the names before it go to the items before it and those behind to the rest.
  have hzip (v : Json) : ((places.map Place.name).map some).zip (before ++ v :: after) =
      (((places.take before.length).map Place.name).map some).zip before ++
        (some places[before.length].name, v) ::
          (((places.drop (before.length + 1)).map Place.name).map some).zip after := by
    conv_lhs =>
      rw [← List.take_append_drop before.length places, List.drop_eq_getElem_cons hindex]
    rw [List.map_append, List.map_append, List.zip_append]
    · rfl
    · simp
      omega
  -- The order of members does not matter, so the changed one can be put in front.
  rw [hzip, hzip]
  exact (MembersAlike.change hrole hkept).perm List.perm_middle List.perm_middle.symm

section Structures

variable {role : Role} {places : List Place} {tree reworded : Json}

/-- A structure that says the same is a structure, too, and its members say the same. -/
theorem Alike.opens (h : Alike role tree reworded) (hstructure : role.isStructure)
    (hplaces : ∀ contents, role.places contents = places)
    {members : List (Option String × Json)} (hopens : Opens (places.map Place.name) tree members) :
    ∃ others, Opens (places.map Place.name) reworded others ∧
      MembersAlike places members others := by
  cases h with
  | object halike =>
      cases hopens
      exact ⟨_, .object, hplaces _ ▸ halike⟩
  -- The items have the names of their places, and the changed one keeps its own.
  | @array before after value other hkept =>
      rw [Role.ofItem_eq hstructure, hplaces] at hkept
      cases hopens with
      | array hlength =>
          refine ⟨_, .array ?_, membersAlike_zip ?_ hkept hlength⟩
          · simpa using hlength
          · exact hplaces (.items []) ▸ role.nodup_places _

/-- A structure that says the same has the fields, and they are alike. -/
theorem Alike.fields? (h : Alike role tree reworded) (hstructure : role.isStructure)
    (hplaces : ∀ contents, role.places contents = places) {contents : Contents}
    {fields : List (Option Json)} (hcontents : contents? tree = some contents)
    (hfields : contents.fields? (places.map Place.name) = some fields) :
    ∃ contents' others, contents? reworded = some contents' ∧
      contents'.fields? (places.map Place.name) = some others ∧
        FieldsAlike places fields others := by
  cases h with
  | object halike =>
      cases hcontents
      rcases (hplaces _ ▸ halike).fields? hfields with ⟨others, hothers, hfieldsAlike⟩
      exact ⟨_, others, rfl, hothers, hfieldsAlike⟩
  | array hkept =>
      rw [Role.ofItem_eq hstructure, hplaces] at hkept
      cases hcontents
      rcases fieldsAlike_items hkept hfields with ⟨others, hothers, hfieldsAlike⟩
      exact ⟨_, others, rfl, hothers, hfieldsAlike⟩

end Structures

/-! ## Structures read in one pass -/

section OnePass

variable {role : Role} {tree reworded : Json}

theorem readText_kept (h : Kept role tree reworded) (text : String)
    (hread : readText tree = .ok text) : readText reworded = .ok text := by
  -- What is put into other words is an object or an array, and a text is neither.
  cases h.container <;> cases hread

theorem readOptionalText_kept (h : Kept role tree reworded) (text : Option String)
    (hread : readOptionalText tree = .ok text) : readOptionalText reworded = .ok text := by
  cases h.container <;> cases hread

/-- An optional text that is left out is read as one that is `null`. -/
theorem readOptionalText_holds {value : Json} (h : Absence.null.Holds value)
    (text : Option String) (hread : readOptionalText value = .ok text) : text = none := by
  obtain rfl : value = .null := h
  exact (Except.ok.inj hread).symm

theorem readList_holds {α : Type} {read : Nat → Json → Except Failure α} {depth : Nat}
    {value : Json} (h : Absence.noItems.Holds value) (values : List α)
    (hread : readList depth read value = .ok values) : values = [] := by
  obtain rfl : value = .array [] none := h
  rw [readList_eq_ok_iff] at hread
  rcases hread with ⟨_, items, -, hitems, hvalues⟩
  obtain rfl := (Json.array.inj hitems).1
  exact List.forall₂_nil_left_iff.mp hvalues

theorem Alike.readPackageTree (h : Alike .package tree reworded) {depth : Nat}
    {package : Package} (hread : readPackageTree depth tree = .ok package) :
    Descriptor.readPackageTree depth reworded = .ok package := by
  rw [readPackageTree_eq_ok_iff] at hread ⊢
  rcases hread with ⟨inside, members, hdepth, hopens, hknown, hpath, hname⟩
  -- The other structure opens, too, and then each of its slots is filled as before.
  rcases h.opens rfl (fun _ => rfl) hopens with ⟨others, hreworded, halike⟩
  refine ⟨inside, others, hdepth, hreworded, halike.known_of hknown, ?_, ?_⟩
  · exact halike.filled List.mem_cons_self rfl (fun _ _ => readText_kept) hpath
  · exact halike.defaulted (List.mem_cons_of_mem _ List.mem_cons_self)
      (fun _ => readOptionalText_holds) (fun _ => rfl) (fun _ _ => readOptionalText_kept) hname

theorem readShapeTree_kept (h : Kept .shape tree reworded) {depth : Nat} (shape : Shape)
    (hread : readShapeTree depth tree = .ok shape) :
    readShapeTree depth reworded = .ok shape := by
  rw [readShapeTree_eq_ok_iff] at hread ⊢
  exact ⟨h.reads.1 _ hread.1, h.reads.2 _ _ hread.2⟩

theorem Alike.readFieldTree (h : Alike .field tree reworded) {depth : Nat} {field : Field}
    (hread : readFieldTree depth tree = .ok field) :
    Descriptor.readFieldTree depth reworded = .ok field := by
  rw [readFieldTree_eq_ok_iff] at hread ⊢
  rcases hread with ⟨inside, members, hdepth, hopens, hknown, hname, htype, htag⟩
  rcases h.opens rfl (fun _ => rfl) hopens with ⟨others, hreworded, halike⟩
  refine ⟨inside, others, hdepth, hreworded, halike.known_of hknown, ?_, ?_, ?_⟩
  · exact halike.filled List.mem_cons_self rfl (fun _ _ => readText_kept) hname
  · exact halike.filled (List.mem_cons_of_mem _ List.mem_cons_self) rfl
      (fun _ _ hkept => readShapeTree_kept hkept) htype
  · exact halike.defaulted (List.mem_cons_of_mem _ (List.mem_cons_of_mem _ List.mem_cons_self))
      (fun _ => readOptionalText_holds) (fun _ => rfl) (fun _ _ => readOptionalText_kept) htag

theorem Alike.readRecordTree (h : Alike .record tree reworded) {depth : Nat} {record : Record}
    (hread : readRecordTree depth tree = .ok record) :
    Descriptor.readRecordTree depth reworded = .ok record := by
  rw [readRecordTree_eq_ok_iff] at hread ⊢
  rcases hread with ⟨inside, members, hdepth, hopens, hknown, hname, hfields⟩
  rcases h.opens rfl (fun _ => rfl) hopens with ⟨others, hreworded, halike⟩
  refine ⟨inside, others, hdepth, hreworded, halike.known_of hknown, ?_, ?_⟩
  · exact halike.filled List.mem_cons_self rfl (fun _ _ => readText_kept) hname
  · refine halike.defaulted (List.mem_cons_of_mem _ List.mem_cons_self)
      (fun _ => readList_holds) ?_ (fun _ _ hkept _ => hkept.readList fun _ _ hreads => hreads)
      hfields
    -- The fields have no null for their default.
    rintro ⟨⟩

theorem Alike.readDocumentTree (h : Alike .document tree reworded) {depth : Nat}
    {document : Document} (hread : readDocumentTree depth tree = .ok document) :
    Descriptor.readDocumentTree depth reworded = .ok document := by
  rw [readDocumentTree_eq_ok_iff] at hread ⊢
  rcases hread with ⟨inside, members, hdepth, hopens, hknown, hpackage, hrecords⟩
  rcases h.opens rfl (fun _ => rfl) hopens with ⟨others, hreworded, halike⟩
  refine ⟨inside, others, hdepth, hreworded, halike.known_of hknown, ?_, ?_⟩
  · exact halike.filled List.mem_cons_self rfl (fun _ _ hkept => hkept.reads.1 inside) hpackage
  · refine halike.defaulted (List.mem_cons_of_mem _ List.mem_cons_self)
      (fun _ => readList_holds) ?_ (fun _ _ hkept _ => hkept.readList fun _ _ hreads => hreads)
      hrecords
    rintro ⟨⟩

end OnePass

/-! ## Structures read by name -/

section ByName

/-- What is read field by field is read as before, if the first field is and what comes
    behind it is. -/
theorem bind_kept {α β : Type} {first first' : Option α} {rest rest' : α → Option β} {b : β}
    (hread : first.bind rest = some b) (hfirst : ∀ {a}, first = some a → first' = some a)
    (hrest : ∀ {a}, rest a = some b → rest' a = some b) : first'.bind rest' = some b := by
  rcases Option.bind_eq_some_iff.mp hread with ⟨a, ha, hb⟩
  exact Option.bind_eq_some_iff.mpr ⟨a, hfirst ha, hrest hb⟩

variable {place : Place} {field other : Option Json} {α : Type} {read? : Json → Option α}

/-- A field that has to be there is read as before. -/
theorem Place.Alike.bind (h : place.Alike field other) (habsence : place.absence = .never)
    (hkeeps : ∀ value other, Kept place.role value other → Keeps read? value other) {a : α}
    (hread : field.bind read? = some a) : other.bind read? = some a := by
  cases h with
  | same => exact hread
  | kept hkept => exact hkeeps _ _ hkept a hread
  -- There is no default that could be left out.
  | omitted hholds =>
      rw [habsence] at hholds
      exact hholds.elim
  | null => cases hread

/-- A field that may be absent is read as before. -/
theorem Place.Alike.orDefault (h : place.Alike field other) {default : α}
    (hdefault : ∀ value, place.absence.Holds value → ∀ a, read? value = some a → a = default)
    (hnull : place.absence = .null → read? .null = some default)
    (hkeeps : ∀ value other, Kept place.role value other → Keeps read? value other) {a : α}
    (hread : orDefault default read? field = some a) :
    Descriptor.orDefault default read? other = some a := by
  cases h with
  | same => exact hread
  | kept hkept => exact hkeeps _ _ hkept a hread
  | omitted hholds => exact congrArg some (hdefault _ hholds a hread).symm
  | null habsence => exact (hnull habsence).trans hread

end ByName

section Shapes

variable {tree reworded : Json} {field other : Option Json} {name : String}

theorem text_alike (h : Place.Alike ⟨name, .other, .never⟩ field other) {text : String}
    (hread : field.bind text? = some text) : other.bind text? = some text :=
  h.bind rfl (fun _ _ hkept => scalar_text?.keeps hkept.container) hread

theorem optionalText_alike (h : Place.Alike ⟨name, .other, .null⟩ field other)
    {text : Option String} (hread : orDefault none (optional? text?) field = some text) :
    orDefault none (optional? text?) other = some text := by
  refine h.orDefault ?_ ?_ (fun _ _ hkept => ?_) hread
  · rintro _ rfl text h
    exact (Option.some.inj h).symm
  · exact fun _ => rfl
  · exact (scalar_text?.keeps hkept.container).optional hkept.container
      hkept.container_reworded

theorem length_alike (h : Place.Alike ⟨name, .other, .never⟩ field other) {len : UInt64}
    (hread : field.bind length? = some len) : other.bind length? = some len :=
  h.bind rfl (fun _ _ hkept => scalar_length?.keeps hkept.container) hread

theorem direction_alike (h : Place.Alike ⟨name, .other, .both⟩ field other) {dir : Go.Direction}
    (hread : orDefault .both direction? field = some dir) :
    orDefault .both direction? other = some dir := by
  refine h.orDefault ?_ ?_ (fun _ _ hkept => hkept.reads.1) hread
  · intro value hholds dir hdir
    exact Option.some.inj (hdir.symm.trans hholds)
  · rintro ⟨⟩

theorem truth_alike (h : Place.Alike ⟨name, .other, .no⟩ field other) {truth : Bool}
    (hread : orDefault false bool? field = some truth) :
    orDefault false bool? other = some truth := by
  refine h.orDefault ?_ ?_ (fun _ _ hkept => scalar_bool?.keeps hkept.container) hread
  · rintro _ rfl truth htruth
    exact (Option.some.inj htruth).symm
  · rintro ⟨⟩

theorem list_alike {α : Type} {read? : Json → Option α} {role : Role}
    (h : Place.Alike ⟨name, .list role, .noItems⟩ field other)
    (hitem : ∀ item other, Container item → role.Reads item other → Keeps read? item other)
    {values : List α} (hread : orDefault [] (list? read?) field = some values) :
    orDefault [] (list? read?) other = some values := by
  refine h.orDefault ?_ ?_ (fun _ _ hkept => hkept.keeps_list hitem) hread
  · rintro _ rfl values hvalues
    exact (Option.some.inj hvalues).symm
  · rintro ⟨⟩

theorem texts_alike (h : Place.Alike ⟨name, .list .other, .noItems⟩ field other)
    {texts : List String} (hread : orDefault [] (list? text?) field = some texts) :
    orDefault [] (list? text?) other = some texts :=
  list_alike h (fun _ _ hcontainer _ => scalar_text?.keeps hcontainer) hread

/-! ### Packages -/

theorem Alike.packageOfTree? (h : Alike .package tree reworded) {package : Package}
    (hread : Package.ofTree? tree = some package) :
    Package.ofTree? reworded = some package := by
  simp only [Package.ofTree?, Option.bind_eq_bind, Option.bind_eq_some_iff] at hread ⊢
  rcases hread with ⟨contents, hcontents, fields, hfields, hread⟩
  rcases h.fields? rfl (fun _ => rfl) hcontents hfields with
    ⟨contents', others, hcontents', hothers, halike⟩
  refine ⟨contents', hcontents', others, hothers, ?_⟩
  rcases halike with _ | ⟨hpath, _ | ⟨hname, ⟨⟩⟩⟩
  refine bind_kept hread (text_alike hpath) fun hread => ?_
  exact bind_kept hread (optionalText_alike hname) id

theorem package_alike (h : Place.Alike ⟨name, .package, .null⟩ field other)
    {package : Option Package}
    (hread : orDefault none (optional? Package.ofTree?) field = some package) :
    orDefault none (optional? Package.ofTree?) other = some package := by
  refine h.orDefault ?_ ?_ (fun _ _ hkept => ?_) hread
  · rintro _ rfl package hpackage
    exact (Option.some.inj hpackage).symm
  · exact fun _ => rfl
  · exact Keeps.optional hkept.reads.2 hkept.container hkept.container_reworded

/-! ### Shapes -/

variable {depth : Nat}

theorem elem_alike (h : Place.Alike ⟨name, .shape, .never⟩ field other) {elem : Shape}
    (hread : field.bind (Shape.ofTree? depth) = some elem) :
    other.bind (Shape.ofTree? depth) = some elem :=
  h.bind rfl (fun _ _ hkept => hkept.reads.2 depth) hread

theorem Alike.paramOfTree? (h : Alike .param tree reworded) {param : Param Shape}
    (hread : Param.ofTree? (Shape.ofTree? depth) tree = some param) :
    Param.ofTree? (Shape.ofTree? depth) reworded = some param := by
  simp only [Param.ofTree?, Option.bind_eq_bind, Option.bind_eq_some_iff] at hread ⊢
  rcases hread with ⟨contents, hcontents, fields, hfields, hread⟩
  rcases h.fields? rfl (fun _ => rfl) hcontents hfields with
    ⟨contents', others, hcontents', hothers, halike⟩
  refine ⟨contents', hcontents', others, hothers, ?_⟩
  rcases halike with _ | ⟨hname, _ | ⟨htype, ⟨⟩⟩⟩
  refine bind_kept hread (optionalText_alike hname) fun hread => ?_
  exact bind_kept hread (elem_alike htype) id

theorem params_alike (h : Place.Alike ⟨name, .list .param, .noItems⟩ field other)
    {params : List (Param Shape)}
    (hread : orDefault [] (list? (Param.ofTree? (Shape.ofTree? depth))) field = some params) :
    orDefault [] (list? (Param.ofTree? (Shape.ofTree? depth))) other = some params :=
  list_alike h (fun _ _ _ hreads => hreads depth) hread

/-- Fields that say the same are those of the same shape. -/
theorem FieldsAlike.ofFields? {kind : Kind} {fields others : List (Option Json)}
    (h : FieldsAlike kind.places fields others) {shape : Shape}
    (hread : Shape.ofFields? (Shape.ofTree? depth) kind fields = some shape) :
    Shape.ofFields? (Shape.ofTree? depth) kind others = some shape := by
  -- Every kind reads its fields in the order of its places, so each list of fields is taken apart
  -- as far as the kind has places.
  cases kind with
  | basic =>
      rcases h with _ | ⟨hname, ⟨⟩⟩
      exact bind_kept hread (text_alike hname) id
  | named =>
      rcases h with _ | ⟨hpackage, _ | ⟨hname, ⟨⟩⟩⟩
      refine bind_kept hread (package_alike hpackage) fun hread => ?_
      exact bind_kept hread (text_alike hname) id
  | pointer =>
      rcases h with _ | ⟨helem, ⟨⟩⟩
      exact bind_kept hread (elem_alike helem) id
  | array =>
      rcases h with _ | ⟨hlen, _ | ⟨helem, ⟨⟩⟩⟩
      refine bind_kept hread (length_alike hlen) fun hread => ?_
      exact bind_kept hread (elem_alike helem) id
  | slice =>
      rcases h with _ | ⟨helem, ⟨⟩⟩
      exact bind_kept hread (elem_alike helem) id
  | chan =>
      rcases h with _ | ⟨hdir, _ | ⟨helem, ⟨⟩⟩⟩
      refine bind_kept hread (direction_alike hdir) fun hread => ?_
      exact bind_kept hread (elem_alike helem) id
  | map =>
      rcases h with _ | ⟨hkey, _ | ⟨hvalue, ⟨⟩⟩⟩
      refine bind_kept hread (elem_alike hkey) fun hread => ?_
      exact bind_kept hread (elem_alike hvalue) id
  | func =>
      rcases h with _ | ⟨hparams, _ | ⟨hresults, _ | ⟨hvariadic, ⟨⟩⟩⟩⟩
      refine bind_kept hread (params_alike hparams) fun hread => ?_
      refine bind_kept hread (params_alike hresults) fun hread => ?_
      exact bind_kept hread (truth_alike hvariadic) id
  | interface =>
      rcases h with _ | ⟨hmethods, ⟨⟩⟩
      exact bind_kept hread (texts_alike hmethods) id
  | struct =>
      rcases h with _ | ⟨hfields, ⟨⟩⟩
      exact bind_kept hread (texts_alike hfields) id
  | typeParam =>
      rcases h with _ | ⟨hname, ⟨⟩⟩
      exact bind_kept hread (text_alike hname) id
  | unsafePointer =>
      cases h
      exact hread

end Shapes

end Descriptor

end FunctionalOptions
