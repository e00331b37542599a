import FunctionalOptions.Descriptor.Json.Write
import FunctionalOptions.Proofs.Json.Text

/-!
# The Trees of Documents

What holds of the trees of shapes and documents as trees. They are all written
ones, since the only numbers in them are array lengths, which have 64 bits.
So whatever a document holds, its text has its tree back.

The tree of a shape is put together from a kind and the trees of its fields.
Taking the two apart again leaves a single fact about names to know: the fields
that are written are some of the fields of the kind, in their order. That no
name comes up twice, and that none is taken for the kind, follows from it for
all kinds at once.

## Main definitions

* `Shape.parts`: The shapes a shape is directly built from.
* `Shape.kind`: The kind of a shape.
* `Shape.fieldTrees`: The fields of a shape, as they are written.

## Theorems

* `Shape.inductOn`: Induction from the parts of a shape to the shape.
* `Shape.toTree_eq`: The tree of a shape has its kind and its fields.
* `Shape.names_sublist`: The fields that are written are fields of the kind.
* `Shape.written_toTree`, `Document.written_toTree`: The trees are written ones.
-/

namespace FunctionalOptions

namespace Descriptor

open Json (Written)

/-- The shapes a shape is directly built from. -/
def Shape.parts : Shape → List Shape
  | .pointer elem => [elem]
  | .array _ elem => [elem]
  | .slice elem => [elem]
  | .chan _ elem => [elem]
  | .map key value => [key, value]
  | .func params results _ => params.map Param.type ++ results.map Param.type
  | _ => []

/-- Induction on a shape. What passes from the parts of a shape to the shape
    holds of every shape. -/
@[elab_as_elim]
theorem Shape.inductOn {motive : Shape → Prop} (shape : Shape)
    (ofParts : ∀ shape, (∀ part ∈ shape.parts, motive part) → motive shape) : motive shape := by
  have hnone {shape : Shape} (h : shape.parts = []) : motive shape := by
    refine ofParts shape fun part hpart => ?_
    rw [h] at hpart
    exact absurd hpart List.not_mem_nil
  refine @Shape.rec motive (fun params => ∀ p ∈ params, motive p.type) (fun p => motive p.type)
    (fun _ => hnone rfl) (fun _ _ => hnone rfl) ?pointer ?array ?slice ?chan ?map ?func
    (fun _ => hnone rfl) (fun _ => hnone rfl) (fun _ => hnone rfl) (hnone rfl)
    ?nil ?cons (fun _ _ h => h) shape
  case pointer => exact fun elem h => ofParts _ (List.forall_mem_singleton.mpr h)
  case array => exact fun len elem h => ofParts _ (List.forall_mem_singleton.mpr h)
  case slice => exact fun elem h => ofParts _ (List.forall_mem_singleton.mpr h)
  case chan => exact fun dir elem h => ofParts _ (List.forall_mem_singleton.mpr h)
  case map =>
    intro key value hkey hvalue
    exact ofParts _ (List.forall_mem_cons.mpr ⟨hkey, List.forall_mem_singleton.mpr hvalue⟩)
  case func =>
    intro params results variadic hparams hresults
    exact ofParts _ (List.forall_mem_append.mpr
      ⟨List.forall_mem_map.mpr hparams, List.forall_mem_map.mpr hresults⟩)
  -- The recursor has the parameters of a function as a list of its own.
  case nil => exact fun _ h => absurd h List.not_mem_nil
  case cons => exact fun _ _ hhead htail => List.forall_mem_cons.mpr ⟨hhead, htail⟩

/-- The trees of parameters are those of the parameters one by one. -/
theorem Shape.paramTrees_eq (params : List (Param Shape)) :
    paramTrees params = params.map paramTree := by
  induction params with
  | nil => rw [paramTrees, List.map_nil]
  | cons p ps ih => rw [paramTrees, List.map_cons, ih]

namespace Shape

/-- The kind of a shape. -/
def kind : Shape → Kind
  | .basic _ => .basic
  | .named _ _ => .named
  | .pointer _ => .pointer
  | .array _ _ => .array
  | .slice _ => .slice
  | .chan _ _ => .chan
  | .map _ _ => .map
  | .func _ _ _ => .func
  | .interface _ => .interface
  | .struct _ => .struct
  | .typeParam _ => .typeParam
  | .unsafePointer => .unsafePointer

/-- The fields of a shape, as they are written behind its kind. -/
def fieldTrees : Shape → List (String × Json)
  | .basic name => [("name", .str name)]
  | .named none name => [("name", .str name)]
  | .named (some package) name => [("package", package.toTree), ("name", .str name)]
  | .pointer elem => [("elem", elem.toTree)]
  | .array len elem => [("len", .ofNat len.toNat), ("elem", elem.toTree)]
  | .slice elem => [("elem", elem.toTree)]
  | .chan dir elem => [("dir", .str dir.word), ("elem", elem.toTree)]
  | .map key value => [("key", key.toTree), ("value", value.toTree)]
  | .func params results variadic =>
    [("params", .arr (params.map paramTree)), ("results", .arr (results.map paramTree)),
      ("variadic", .bool variadic)]
  | .interface methods => [("methods", textsTree methods)]
  | .struct fields => [("fields", textsTree fields)]
  | .typeParam name => [("name", .str name)]
  | .unsafePointer => []

/-- The tree of a shape has its kind and its fields. -/
theorem toTree_eq (shape : Shape) : shape.toTree = tree shape.kind shape.fieldTrees := by
  cases shape with
  | named package name =>
      cases package with
      | none =>
          rw [toTree]
          rfl
      | some package =>
          rw [toTree]
          rfl
  | func params results variadic =>
      rw [toTree, paramTrees_eq, paramTrees_eq]
      rfl
  | _ =>
      rw [toTree]
      rfl

/-- The fields that are written are fields of the kind, in their order. -/
theorem names_sublist (shape : Shape) :
    (shape.fieldTrees.map Prod.fst).Sublist shape.kind.fieldNames := by
  cases shape with
  | named package name =>
      cases package with
      | none => exact List.sublist_cons_self "package" ["name"]
      | some package => exact List.Sublist.refl ["package", "name"]
  | _ => exact List.Sublist.refl _

/-- No name comes up twice in the tree of a shape. -/
theorem nodup_names (shape : Shape) : ("kind" :: shape.fieldTrees.map Prod.fst).Nodup := by
  have hkind : ∀ kind : Kind, ("kind" :: kind.fieldNames).Nodup := by
    intro kind
    cases kind <;> decide
  exact (shape.names_sublist.cons_cons "kind").nodup (hkind shape.kind)

end Shape

/-! ## Written trees -/

/-- A member for a text is a written one. -/
theorem written_optionalMember (name : String) (text : Option String) :
    ∀ member ∈ optionalMember name text, Written member.2 := by
  cases text with
  | none => exact fun _ h => absurd h List.not_mem_nil
  | some text => exact List.forall_mem_singleton.mpr (.str text)

theorem Package.written_toTree (package : Package) : Written package.toTree :=
  .obj (List.forall_mem_cons.mpr ⟨.str _, written_optionalMember "name" package.name⟩)

theorem written_textsTree (texts : List String) : Written (textsTree texts) :=
  .arr (List.forall_mem_map.mpr fun text _ => .str text)

namespace Shape

/-- The trees of parameters are written if those of their types are. -/
theorem written_paramTrees {params : List (Param Shape)}
    (h : ∀ p ∈ params, Written p.type.toTree) : Written (.arr (params.map paramTree)) := by
  refine .arr (List.forall_mem_map.mpr fun p hp => ?_)
  rw [paramTree]
  refine .obj (List.forall_mem_append.mpr ⟨written_optionalMember "name" p.name, ?_⟩)
  exact List.forall_mem_singleton.mpr (h p hp)

/-- The tree of a shape is written if those of its fields are. -/
theorem written_of_fields {shape : Shape} (h : ∀ field ∈ shape.fieldTrees, Written field.2) :
    Written shape.toTree := by
  rw [toTree_eq]
  exact .obj (List.forall_mem_cons.mpr ⟨.str shape.kind.word, h⟩)

/-- The trees of the fields of a shape are written ones if those of its parts
    are. -/
theorem written_fieldTrees_of_parts {shape : Shape}
    (h : ∀ part ∈ shape.parts, Written part.toTree) :
    ∀ field ∈ shape.fieldTrees, Written field.2 := by
  cases shape with
  | basic name => exact List.forall_mem_singleton.mpr (.str name)
  | named package name =>
      cases package with
      | none => exact List.forall_mem_singleton.mpr (.str name)
      | some package =>
          exact List.forall_mem_cons.mpr
            ⟨package.written_toTree, List.forall_mem_singleton.mpr (.str name)⟩
  | pointer elem =>
      have helem : Written elem.toTree := h elem List.mem_cons_self
      exact List.forall_mem_singleton.mpr helem
  | array len elem =>
      have hlen : Written (.ofNat len.toNat) := .ofNat len.toNat_lt
      have helem : Written elem.toTree := h elem List.mem_cons_self
      exact List.forall_mem_cons.mpr ⟨hlen, List.forall_mem_singleton.mpr helem⟩
  | slice elem =>
      have helem : Written elem.toTree := h elem List.mem_cons_self
      exact List.forall_mem_singleton.mpr helem
  | chan dir elem =>
      have helem : Written elem.toTree := h elem List.mem_cons_self
      exact List.forall_mem_cons.mpr ⟨.str dir.word, List.forall_mem_singleton.mpr helem⟩
  | map key value =>
      have hkey : Written key.toTree := h key List.mem_cons_self
      have hvalue : Written value.toTree := h value (List.mem_cons_of_mem key List.mem_cons_self)
      exact List.forall_mem_cons.mpr ⟨hkey, List.forall_mem_singleton.mpr hvalue⟩
  | func params results variadic =>
      -- The parts of a function are the types of its parameters and then those of its results.
      rcases List.forall_mem_append.mp h with ⟨hparams, hresults⟩
      have hparams := written_paramTrees fun p hp => hparams p.type (List.mem_map_of_mem hp)
      have hresults := written_paramTrees fun p hp => hresults p.type (List.mem_map_of_mem hp)
      exact List.forall_mem_cons.mpr ⟨hparams, List.forall_mem_cons.mpr
        ⟨hresults, List.forall_mem_singleton.mpr (.bool variadic)⟩⟩
  | interface methods => exact List.forall_mem_singleton.mpr (written_textsTree methods)
  | struct fields => exact List.forall_mem_singleton.mpr (written_textsTree fields)
  | typeParam name => exact List.forall_mem_singleton.mpr (.str name)
  | unsafePointer => exact fun _ h => absurd h List.not_mem_nil

/-- The tree of a shape is a written one. -/
theorem written_toTree (shape : Shape) : Written shape.toTree := by
  induction shape using inductOn with
  | ofParts shape ih => exact written_of_fields (written_fieldTrees_of_parts ih)

theorem written_fieldTrees (shape : Shape) : ∀ field ∈ shape.fieldTrees, Written field.2 :=
  written_fieldTrees_of_parts fun part _ => part.written_toTree

end Shape

theorem Field.written_toTree (field : Field) : Written field.toTree :=
  .obj (List.forall_mem_cons.mpr ⟨.str _, List.forall_mem_cons.mpr
    ⟨field.type.written_toTree, written_optionalMember "tag" field.tag⟩⟩)

theorem Record.written_toTree (record : Record) : Written record.toTree :=
  .obj (List.forall_mem_cons.mpr ⟨.str _, List.forall_mem_singleton.mpr
    (.arr (List.forall_mem_map.mpr fun field _ => field.written_toTree))⟩)

/-- The tree of a document is a written one. -/
theorem Document.written_toTree (document : Document) : Written document.toTree :=
  .obj (List.forall_mem_cons.mpr ⟨document.package.written_toTree, List.forall_mem_singleton.mpr
    (.arr (List.forall_mem_map.mpr fun record _ => record.written_toTree))⟩)

end Descriptor

end FunctionalOptions
