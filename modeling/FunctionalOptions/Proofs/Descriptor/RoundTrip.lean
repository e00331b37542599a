import FunctionalOptions.Descriptor.Json.Read
import FunctionalOptions.Proofs.Descriptor.ShapeTree

/-!
# Reading Written Documents

A document that is written and read back is the same document. Every member
that is written is taken into its slot, and a member that writing leaves out is
one whose slot may stay empty. So the slots are followed from one member to the
next, for one structure after the other, with the depth that is left to each.

The limit on nesting is one of reading alone. Writing keeps documents apart
however deep they nest, which is seen from their trees, since a tree can be
read back with as much depth as it needs.

## Theorems

* `readMembers_cons`: A member that is taken in leaves those behind it.
* `readDocumentTree_toTree`: A document is read from its tree.
* `Document.toTree_injective`: No two documents have the same tree.
* `Document.read_toJson`: A document is read from its text.
* `Document.ofJson_toJson`: Writing and reading, and writing again.
-/

namespace FunctionalOptions

namespace Descriptor

open Json (entry nesting_arr_le_iff nesting_obj_le_iff)

/-! ## Structures -/

/-- An object is taken apart into its members, with one level less left. -/
theorem readStructure_obj (inside : Nat) (names : List String)
    (members : List (String × Json)) :
    readStructure (inside + 1) names (.obj members) = .ok (inside, members.map entry, none) :=
  rfl

/-- A member that is taken in leaves those behind it. -/
theorem readMembers_cons {σ : Type} {take : σ → String → Json → Except Json.Failure σ}
    {sofar next : σ} {name : String} {value : Json} (h : take sofar name value = .ok next)
    (rest : List (String × Json)) :
    readMembers take sofar (((name, value) :: rest).map entry) =
      readMembers take next (rest.map entry) := by
  rw [List.map_cons, entry, readMembers, h]
  rfl

/-- What is written one by one is read one by one. -/
theorem readItems_map {α : Type} {read : Json → Except Json.Failure α} {write : α → Json}
    {values : List α} (h : ∀ value ∈ values, read (write value) = .ok value) :
    readItems read (values.map write) = .ok values := by
  induction values with
  | nil => rfl
  | cons value rest ih =>
      rw [List.map_cons, readItems, h value List.mem_cons_self,
        ih fun other hother => h other (List.mem_cons_of_mem value hother)]
      rfl

/-- A list is read from its tree if its items are, one level further in. -/
theorem readList_arr {α : Type} {read : Nat → Json → Except Json.Failure α} {write : α → Json}
    {values : List α} {depth : Nat} (hdepth : (Json.arr (values.map write)).nesting ≤ depth)
    (h : ∀ value ∈ values, ∀ inside ≤ depth, (write value).nesting ≤ inside →
      read inside (write value) = .ok value) :
    readList depth read (.arr (values.map write)) = .ok values := by
  rcases nesting_arr_le_iff.mp hdepth with ⟨inside, rfl, hitems⟩
  -- The items nest less deep than the list by one, which is what the reader has left for them.
  have hread := readItems_map fun value hvalue =>
    h value hvalue inside (Nat.le_succ inside) (List.forall_mem_map.mp hitems value hvalue)
  rw [Json.arr, readList, hread]
  rfl

/-! ## Documents -/

section Readers

variable {depth : Nat}

/-- A shape is read from its tree. -/
theorem readShapeTree_toTree (shape : Shape) (hlimit : depth ≤ depthLimit)
    (h : shape.toTree.nesting ≤ depth) : readShapeTree depth shape.toTree = .ok shape := by
  rw [readShapeTree, shape.checkTagged_toTree h,
    shape.ofTree?_toTree (Nat.le_trans h hlimit)]
  rfl

/-- A package is read from its tree. -/
theorem readPackageTree_toTree (package : Package) (h : package.toTree.nesting ≤ depth) :
    readPackageTree depth package.toTree = .ok package := by
  rcases nesting_obj_le_iff.mp h with ⟨inside, rfl, -⟩
  rcases package with ⟨path, _ | name⟩
  · rfl
  · rfl

/-- A field is read from its tree. -/
theorem readFieldTree_toTree (field : Field) (hlimit : depth ≤ depthLimit)
    (h : field.toTree.nesting ≤ depth) : readFieldTree depth field.toTree = .ok field := by
  rcases nesting_obj_le_iff.mp h with ⟨inside, rfl, hmembers⟩
  rcases field with ⟨name, type, tag⟩
  have hshape : readShapeTree inside type.toTree = .ok type :=
    readShapeTree_toTree type (Nat.le_of_succ_le hlimit)
      (hmembers _ (List.mem_cons_of_mem _ List.mem_cons_self))
  have htype : FieldSlots.take inside { name := some name } "type" type.toTree =
      .ok { name := some name, type := some type } := by
    rw [FieldSlots.take, if_neg (by decide), if_pos rfl, hshape]
    rfl
  rw [Field.toTree, readFieldTree, readStructure_obj]
  show ((readMembers _ _ _).bind _) = _
  rw [List.cons_append, readMembers_cons rfl, List.cons_append, readMembers_cons htype]
  -- A tag that is left out leaves its slot empty.
  cases tag with
  | none => rfl
  | some tag => rfl

/-- A record type is read from its tree. -/
theorem readRecordTree_toTree (record : Record) (hlimit : depth ≤ depthLimit)
    (h : record.toTree.nesting ≤ depth) : readRecordTree depth record.toTree = .ok record := by
  rcases nesting_obj_le_iff.mp h with ⟨inside, rfl, hmembers⟩
  rcases record with ⟨name, fields⟩
  have hread : readList inside readFieldTree (.arr (fields.map Field.toTree)) = .ok fields :=
    readList_arr (hmembers _ (List.mem_cons_of_mem _ List.mem_cons_self))
      fun field _ deeper hdeeper => readFieldTree_toTree field (by omega)
  have hfields : RecordSlots.take inside { name := some name } "fields"
      (.arr (fields.map Field.toTree)) = .ok { name := some name, fields := some fields } := by
    rw [RecordSlots.take, if_neg (by decide), if_pos rfl, hread]
    rfl
  rw [Record.toTree, readRecordTree, readStructure_obj]
  show ((readMembers _ _ _).bind _) = _
  rw [readMembers_cons rfl, readMembers_cons hfields]
  rfl

/-- A document is read from its tree. -/
theorem readDocumentTree_toTree (document : Document) (hlimit : depth ≤ depthLimit)
    (h : document.toTree.nesting ≤ depth) :
    readDocumentTree depth document.toTree = .ok document := by
  rcases nesting_obj_le_iff.mp h with ⟨inside, rfl, hmembers⟩
  rcases document with ⟨package, records⟩
  have hpackage : DocumentSlots.take inside {} "package" package.toTree =
      .ok { package := some package } := by
    rw [DocumentSlots.take, if_pos rfl,
      readPackageTree_toTree package (hmembers _ List.mem_cons_self)]
    rfl
  have hread : readList inside readRecordTree (.arr (records.map Record.toTree)) = .ok records :=
    readList_arr (hmembers _ (List.mem_cons_of_mem _ List.mem_cons_self))
      fun record _ deeper hdeeper => readRecordTree_toTree record (by omega)
  have hrecords : DocumentSlots.take inside { package := some package } "records"
      (.arr (records.map Record.toTree)) =
        .ok { package := some package, records := some records } := by
    rw [DocumentSlots.take, if_neg (by decide), if_pos rfl, hread]
    rfl
  rw [Document.toTree, readDocumentTree, readStructure_obj]
  show ((readMembers _ _ _).bind _) = _
  rw [readMembers_cons hpackage, readMembers_cons hrecords]
  rfl

end Readers

/-! ## Different trees -/

theorem Shape.toTree_injective : Function.Injective Shape.toTree := by
  intro shape other h
  -- With enough depth for the tree, it is read as the one and as the other.
  have hread := shape.ofTree?_toTree (Nat.le_refl _)
  rw [h, other.ofTree?_toTree (Nat.le_refl _)] at hread
  exact (Option.some.inj hread).symm

theorem Package.toTree_injective : Function.Injective Package.toTree := by
  intro package other h
  have hread := package.ofTree?_toTree
  rw [h, other.ofTree?_toTree] at hread
  exact (Option.some.inj hread).symm

theorem optionalMember_injective (name : String) :
    Function.Injective (optionalMember name) := by
  intro text other h
  cases text with
  | none =>
      cases other with
      | none => rfl
      | some other => cases h
  | some text =>
      cases other with
      | none => cases h
      | some other =>
          cases h
          rfl

theorem Field.toTree_injective : Function.Injective Field.toTree := by
  rintro ⟨name, type, tag⟩ ⟨otherName, otherType, otherTag⟩ h
  -- Trees that are equal have equal members, in the same order.
  have hmembers := Json.obj_injective h
  simp only [List.cons_append, List.nil_append, List.cons.injEq, Prod.mk.injEq, true_and]
    at hmembers
  rcases hmembers with ⟨hname, htype, htag⟩
  cases hname
  cases Shape.toTree_injective htype
  cases optionalMember_injective "tag" htag
  rfl

theorem Record.toTree_injective : Function.Injective Record.toTree := by
  rintro ⟨name, fields⟩ ⟨otherName, otherFields⟩ h
  have hmembers := Json.obj_injective h
  simp only [List.cons.injEq, Prod.mk.injEq, true_and, and_true] at hmembers
  rcases hmembers with ⟨hname, hfields⟩
  cases hname
  cases Field.toTree_injective.list_map (Json.arr_injective hfields)
  rfl

theorem Document.toTree_injective : Function.Injective Document.toTree := by
  rintro ⟨package, records⟩ ⟨otherPackage, otherRecords⟩ h
  have hmembers := Json.obj_injective h
  simp only [List.cons.injEq, Prod.mk.injEq, true_and, and_true] at hmembers
  rcases hmembers with ⟨hpackage, hrecords⟩
  cases Package.toTree_injective hpackage
  cases Record.toTree_injective.list_map (Json.arr_injective hrecords)
  rfl

/-! ## The round trip -/

/-- A document is read from its text. -/
theorem Document.read_toJson (document : Document) (h : document.toTree.nesting ≤ depthLimit) :
    Document.ofJson document.toJson = .ok document := by
  rw [Document.ofJson, readWhole, Document.toJson, Json.ofText_text document.written_toTree]
  show (readDocumentTree depthLimit document.toTree).bind _ = _
  rw [readDocumentTree_toTree document (Nat.le_refl _) h]
  rfl

/-- Writing a document and reading it back gives the document again, and so the
    same text, as long as the text does not nest deeper than is read. Even of
    those that nest deeper, no two documents have the same text. -/
theorem Document.ofJson_toJson :
    (∀ document : Document, document.toTree.nesting ≤ 127 →
      Document.ofJson document.toJson = .ok document ∧
        (Document.ofJson document.toJson).map Document.toJson = .ok document.toJson) ∧
      Function.Injective Document.toJson := by
  refine ⟨fun document h => ?_, fun document other h => ?_⟩
  · have hread := document.read_toJson h
    refine ⟨hread, ?_⟩
    rw [hread]
    rfl
  · -- Trees need not be within the limit to be told from their texts.
    have htree : document.toTree = other.toTree :=
      Json.text_injective document.written_toTree other.written_toTree h
    exact Document.toTree_injective htree

/-- A record type of each kind of shape, twice under one name, with the longest
    array there is and with characters that need every kind of escape. -/
def Document.everyKind : Document :=
  let elem : Shape := .named (some ⟨"example.com/pkg", some "alias"⟩) "T"
  let fields : List Field :=
    [⟨"Basic", .basic "int", none⟩, ⟨"Named", .named none "Local", some "json:\"a\\b\""⟩,
      ⟨"Pointer", .pointer elem, none⟩, ⟨"Array", .array 18446744073709551615 elem, none⟩,
      ⟨"Slice", .slice elem, some "\t\n\x01"⟩, ⟨"Chan", .chan .recv elem, none⟩,
      ⟨"Map", .map (.basic "string") elem, none⟩,
      ⟨"Func", .func [⟨some "ctx", elem⟩, ⟨none, .slice elem⟩] [⟨none, .basic "error"⟩] true, none⟩,
      ⟨"Interface", .interface ["Read", "Write"], none⟩, ⟨"Struct", .struct ["x", "y"], none⟩,
      ⟨"TypeParam", .typeParam "T", none⟩, ⟨"Unsafe", .unsafePointer, some "é😀"⟩]
  ⟨⟨"example.com/main", none⟩, [⟨"Options", fields⟩, ⟨"Options", []⟩]⟩

theorem Document.ofJson_toJson_everyKind :
    everyKind.toTree.nesting ≤ 127 ∧ Document.ofJson everyKind.toJson = .ok everyKind := by
  have hdepth : everyKind.toTree.nesting ≤ 127 := by
    decide
  exact ⟨hdepth, (Document.ofJson_toJson.1 everyKind hdepth).1⟩

end Descriptor

end FunctionalOptions
