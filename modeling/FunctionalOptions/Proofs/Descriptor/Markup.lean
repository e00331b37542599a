import FunctionalOptions.Descriptor.Basic
import FunctionalOptions.Proofs.Descriptor.Written
import FunctionalOptions.Proofs.Xml.Writing

/-!
# Descriptors as Elements

Which elements stand for a document. The kind of a shape is the name of its
element; names, lengths, directions and marks are attributes, and the shapes
inside are elements inside.

There is more than one way to say the same thing. A value that goes without
saying may be said, a direction has several words, the key and the value of a
map come in either order, and the results of a function may stand between its
parameters. What the order of the elements has to tell is the order of the
parameters among themselves, and that of the results. So this too is a relation,
between elements and what they stand for.

## Main definitions

* `Operand`: A parameter or result as one of the elements of a function.
* `Describes`: An element stands for a shape.
* `DescribesField`, `DescribesRecord`, `DescribesDocument`: An element stands for
  a field, a record type and a document.
* `Document.WrittenXml`: A text has the elements of a document.

## Theorems

* `Shape.exists_describes`: Every shape has an element, and it can be written.
* `Document.exists_writtenXml`: So has every document a text.
-/

namespace FunctionalOptions

namespace Descriptor

open Xml (Node Writable isName writable_append writable_element writable_nil writable_of_forall)

/-! ## Attributes -/

/-- The attribute for a value, if there is one. -/
def optionalAttribute (key : String) (value : Option String) : List (String × String) :=
  value.toList.map fun value => (key, value)

/-- The attributes for the package of a declared name. -/
def packageAttributes : Option Package → List (String × String)
  | none => []
  | some package => ("package", package.path) :: optionalAttribute "packageName" package.name

/-- The attributes for a value that has words of its own and need not be said if
    it is the usual one. -/
inductive UsualAttribute {α : Type} (key : String) (words : α → List String) (usual : α) :
    α → List (String × String) → Prop where
  | unsaid : UsualAttribute key words usual usual []
  | said {value : α} {word : String} :
    word ∈ words value → UsualAttribute key words usual value [(key, word)]

/-- The words for a direction. -/
def directionWords : Go.Direction → List String
  | .recv => ["recv", "receive", "<-chan"]
  | .send => ["send", "chan<-"]
  | .both => ["both", "bidirectional", "chan"]

/-- The words for a truth value. -/
def truthWords : Bool → List String
  | true => ["true", "1"]
  | false => ["false", "0"]

/-! ## Shapes -/

/-- An element for the one type inside another element. -/
def typeNode (name : String) (attributes : List (String × String)) (type : Node) : Node :=
  .element name attributes [type]

/-- An element for a member of an interface or struct. -/
def memberNode (member name : String) : Node :=
  .element member [("name", name)] []

/-- A parameter or result of a function as one of its elements, with the element
    of its type. -/
structure Operand where
  isResult : Bool
  param : Param Shape
  type : Node

namespace Operand

/-- The element of an operand. -/
def node (operand : Operand) : Node :=
  typeNode (if operand.isResult then "result" else "param")
    (optionalAttribute "name" operand.param.name) operand.type

/-- The parameters among operands. -/
def params (operands : List Operand) : List (Param Shape) :=
  (operands.filter (!·.isResult)).map Operand.param

/-- The results among operands. -/
def results (operands : List Operand) : List (Param Shape) :=
  (operands.filter (·.isResult)).map Operand.param

end Operand

/-- The element stands for the shape. -/
inductive Describes : Node → Shape → Prop where
  | basic (name : String) : Describes (.element "basic" [("name", name)] []) (.basic name)
  | named (package : Option Package) (name : String) :
    Describes (.element "named" (packageAttributes package ++ [("name", name)]) [])
      (.named package name)
  | typeParam (name : String) :
    Describes (.element "typeParam" [("name", name)] []) (.typeParam name)
  | unsafePointer : Describes (.element "unsafePointer" [] []) .unsafePointer
  | pointer {type : Node} {elem : Shape} :
    Describes type elem → Describes (typeNode "pointer" [] type) (.pointer elem)
  | slice {type : Node} {elem : Shape} :
    Describes type elem → Describes (typeNode "slice" [] type) (.slice elem)
  | array {type : Node} {elem : Shape} (len : UInt64) :
    Describes type elem →
    Describes (typeNode "array" [("len", toString len.toNat)] type) (.array len elem)
  | chan {type : Node} {elem : Shape} {dir : Go.Direction} {attributes : List (String × String)} :
    UsualAttribute "dir" directionWords .both dir attributes → Describes type elem →
    Describes (typeNode "chan" attributes type) (.chan dir elem)
  | map {keyType valueType : Node} {key value : Shape} {children : List Node} :
    Describes keyType key → Describes valueType value →
    children.Perm [typeNode "key" [] keyType, typeNode "value" [] valueType] →
    Describes (.element "map" [] children) (.map key value)
  | func {operands : List Operand} {variadic : Bool} {attributes : List (String × String)} :
    UsualAttribute "variadic" truthWords false variadic attributes →
    (∀ operand ∈ operands, Describes operand.type operand.param.type) →
    Describes (.element "func" attributes (operands.map Operand.node))
      (.func (Operand.params operands) (Operand.results operands) variadic)
  | interface (methods : List String) :
    Describes (.element "interface" [] (methods.map (memberNode "method"))) (.interface methods)
  | struct (fields : List String) :
    Describes (.element "struct" [] (fields.map (memberNode "member"))) (.struct fields)

/-! ## Documents -/

/-- The element stands for the field. -/
inductive DescribesField : Node → Field → Prop where
  | intro {field : Field} {type : Node} : Describes type field.type →
    DescribesField
      (typeNode "field" (("name", field.name) :: optionalAttribute "tag" field.tag) type) field

/-- The element stands for the record type. -/
inductive DescribesRecord : Node → Record → Prop where
  | intro {record : Record} {fields : List Node} :
    List.Forall₂ DescribesField fields record.fields →
    DescribesRecord (.element "record" [("name", record.name)] fields) record

/-- The element stands for the document. -/
inductive DescribesDocument : Node → Document → Prop where
  | intro {document : Document} {records : List Node} :
    List.Forall₂ DescribesRecord records document.records →
    DescribesDocument
      (.element "package"
        (("path", document.package.path) :: optionalAttribute "name" document.package.name) records)
      document

/-- The text has the element of the document, with a declaration in front of it
    or without. -/
inductive Document.WrittenXml (document : Document) (text : String) : Prop where
  | intro {node : Node} {prolog elements : List Char} :
    DescribesDocument node document → Xml.Prolog prolog → Xml.Written [node] elements →
    text.toList = prolog ++ elements → Document.WrittenXml document text

/-! ## There is a text -/

theorem optionalAttribute_keys (key : String) (value : Option String) :
    ((optionalAttribute key value).map Prod.fst).Sublist [key] := by
  cases value with
  | none => exact List.nil_sublist _
  | some value => exact List.Sublist.refl _

/-- The element can have the name and the keys: all of them can be written, and no
    key comes twice. -/
def usableNames (name : String) (keys : List String) : Bool :=
  (name :: keys).all isName && decide keys.Nodup

/-- An element can be written when its keys are some of usable ones, in their
    order, and its contents can be written. -/
theorem writable_of_keys {name : String} {attributes : List (String × String)} {keys : List String}
    {children : List Node} (hattributes : (attributes.map Prod.fst).Sublist keys)
    (husable : usableNames name keys = true) (h : Writable children) :
    Writable [.element name attributes children] := by
  rw [usableNames, Bool.and_eq_true, List.all_cons, Bool.and_eq_true, List.all_eq_true,
    decide_eq_true_iff] at husable
  rcases husable with ⟨⟨hname, hkeys⟩, hnodup⟩
  exact writable_element hname (fun key hkey => hkeys key (hattributes.subset hkey))
    (hattributes.nodup hnodup) h

theorem writable_memberNodes {member : String} (hmember : usableNames member ["name"] = true)
    (names : List String) : Writable (names.map (memberNode member)) :=
  writable_of_forall (List.forall_mem_map.mpr fun _ _ =>
    writable_of_keys (List.Sublist.refl ["name"]) hmember writable_nil)

theorem Operand.writable_node {operand : Operand} (h : Writable [operand.type]) :
    Writable [operand.node] := by
  have hkeys := optionalAttribute_keys "name" operand.param.name
  rw [Operand.node]
  cases operand.isResult with
  | true => exact writable_of_keys hkeys (by decide) h
  | false => exact writable_of_keys hkeys (by decide) h

/-- There are operands for parameters if there are elements for their types. -/
theorem exists_operands (isResult : Bool) {params : List (Param Shape)}
    (h : ∀ param ∈ params, ∃ type, Describes type param.type ∧ Writable [type]) :
    ∃ operands : List Operand, operands.map Operand.param = params ∧ ∀ operand ∈ operands,
      operand.isResult = isResult ∧ Describes operand.type operand.param.type ∧
        Writable [operand.type] := by
  induction params with
  | nil => exact ⟨[], rfl, fun _ h => absurd h List.not_mem_nil⟩
  | cons param params ih =>
      rw [List.forall_mem_cons] at h
      rcases h.1 with ⟨type, hdescribes, hwritable⟩
      rcases ih h.2 with ⟨operands, hparams, hoperands⟩
      refine ⟨⟨isResult, param, type⟩ :: operands, ?_, ?_⟩
      · rw [List.map_cons, hparams]
      · exact List.forall_mem_cons.mpr ⟨⟨rfl, hdescribes, hwritable⟩, hoperands⟩

/-- A function has an element if its parameters and results have. The parameters
    are put in front of the results, as they are declared. -/
theorem exists_describes_func {params results : List (Param Shape)} (variadic : Bool)
    (hparams : ∀ param ∈ params, ∃ type, Describes type param.type ∧ Writable [type])
    (hresults : ∀ result ∈ results, ∃ type, Describes type result.type ∧ Writable [type]) :
    ∃ node, Describes node (.func params results variadic) ∧ Writable [node] := by
  rcases exists_operands false hparams with ⟨front, rfl, hfront⟩
  rcases exists_operands true hresults with ⟨behind, rfl, hbehind⟩
  -- All of the first are parameters and all of the second are results.
  have hparams : Operand.params (front ++ behind) = front.map Operand.param := by
    rw [Operand.params, List.filter_append,
      List.filter_eq_self.mpr fun o ho => by rw [(hfront o ho).1]; rfl,
      List.filter_eq_nil_iff.mpr fun o ho => by rw [(hbehind o ho).1]; exact Bool.false_ne_true,
      List.append_nil]
  have hresults : Operand.results (front ++ behind) = behind.map Operand.param := by
    rw [Operand.results, List.filter_append,
      List.filter_eq_nil_iff.mpr fun o ho => by rw [(hfront o ho).1]; exact Bool.false_ne_true,
      List.filter_eq_self.mpr fun o ho => (hbehind o ho).1, List.nil_append]
  have hall := List.forall_mem_append.mpr
    ⟨fun o ho => (hfront o ho).2, fun o ho => (hbehind o ho).2⟩
  have hword : toString variadic ∈ truthWords variadic := by
    cases variadic <;> decide
  rw [← hparams, ← hresults]
  refine ⟨_, .func (.said hword) fun o ho => (hall o ho).1, ?_⟩
  refine writable_of_keys (List.Sublist.refl ["variadic"]) (by decide) ?_
  exact writable_of_forall (List.forall_mem_map.mpr fun o ho =>
    Operand.writable_node (hall o ho).2)

/-- Every shape has an element, and the element can be written. -/
theorem Shape.exists_describes (shape : Shape) :
    ∃ node, Describes node shape ∧ Writable [node] := by
  -- What is inside a shape can be written, and then the shape can be.
  induction shape using inductOn with
  | ofParts shape ih =>
  cases shape with
  | basic name =>
      exact ⟨_, .basic name,
        writable_of_keys (List.Sublist.refl ["name"]) (by decide) writable_nil⟩
  | named package name =>
      -- The attributes of a package come in front of the name, as far as it has them.
      have hkeys : ((packageAttributes package ++ [("name", name)]).map Prod.fst).Sublist
          ["package", "packageName", "name"] := by
        rw [List.map_append]
        cases package with
        | none => exact List.sublist_append_right ["package", "packageName"] ["name"]
        | some package =>
            exact ((optionalAttribute_keys "packageName" package.name).append
              (List.Sublist.refl ["name"])).cons_cons "package"
      exact ⟨_, .named package name, writable_of_keys hkeys (by decide) writable_nil⟩
  | pointer elem =>
      rcases ih elem List.mem_cons_self with ⟨type, hdescribes, hwritable⟩
      exact ⟨_, .pointer hdescribes, writable_of_keys (List.Sublist.refl []) (by decide) hwritable⟩
  | slice elem =>
      rcases ih elem List.mem_cons_self with ⟨type, hdescribes, hwritable⟩
      exact ⟨_, .slice hdescribes, writable_of_keys (List.Sublist.refl []) (by decide) hwritable⟩
  | array len elem =>
      rcases ih elem List.mem_cons_self with ⟨type, hdescribes, hwritable⟩
      exact ⟨_, .array len hdescribes,
        writable_of_keys (List.Sublist.refl ["len"]) (by decide) hwritable⟩
  | chan dir elem =>
      rcases ih elem List.mem_cons_self with ⟨type, hdescribes, hwritable⟩
      have hword : dir.word ∈ directionWords dir := by
        cases dir <;> decide
      exact ⟨_, .chan (.said hword) hdescribes,
        writable_of_keys (List.Sublist.refl ["dir"]) (by decide) hwritable⟩
  | map key value =>
      rcases ih key List.mem_cons_self with ⟨keyType, hkey, hkeyWritable⟩
      rcases ih value (List.mem_cons_of_mem key List.mem_cons_self) with
        ⟨valueType, hvalue, hvalueWritable⟩
      have hfirst : Writable [typeNode "key" [] keyType] :=
        writable_of_keys (List.Sublist.refl []) (by decide) hkeyWritable
      have hsecond : Writable [typeNode "value" [] valueType] :=
        writable_of_keys (List.Sublist.refl []) (by decide) hvalueWritable
      exact ⟨_, .map hkey hvalue (List.Perm.refl _), writable_of_keys (List.Sublist.refl [])
        (by decide) (writable_append hfirst hsecond)⟩
  | func params results variadic =>
      have ih := List.forall_mem_append.mp ih
      exact exists_describes_func variadic
        (fun p hp => ih.1 p.type (List.mem_map_of_mem hp))
        (fun p hp => ih.2 p.type (List.mem_map_of_mem hp))
  | interface methods =>
      exact ⟨_, .interface methods, writable_of_keys (List.Sublist.refl []) (by decide)
        (writable_memberNodes (by decide) methods)⟩
  | struct fields =>
      exact ⟨_, .struct fields, writable_of_keys (List.Sublist.refl []) (by decide)
        (writable_memberNodes (by decide) fields)⟩
  | typeParam name =>
      exact ⟨_, .typeParam name,
        writable_of_keys (List.Sublist.refl ["name"]) (by decide) writable_nil⟩
  | unsafePointer =>
      exact ⟨_, .unsafePointer,
        writable_of_keys (List.Sublist.refl []) (by decide) writable_nil⟩

/-- What has an element one by one has elements as a list. -/
theorem exists_forall₂ {α : Type} {relation : Node → α → Prop} (values : List α)
    (h : ∀ value, ∃ node, relation node value ∧ Writable [node]) :
    ∃ nodes, List.Forall₂ relation nodes values ∧ Writable nodes := by
  induction values with
  | nil => exact ⟨[], .nil, writable_nil⟩
  | cons value values ih =>
      rcases h value with ⟨node, hnode, hwritable⟩
      rcases ih with ⟨nodes, hnodes, hrest⟩
      exact ⟨node :: nodes, .cons hnode hnodes, writable_append hwritable hrest⟩

theorem Field.exists_describes (field : Field) :
    ∃ node, DescribesField node field ∧ Writable [node] := by
  rcases field.type.exists_describes with ⟨type, hdescribes, hwritable⟩
  have hkeys := (optionalAttribute_keys "tag" field.tag).cons_cons "name"
  exact ⟨_, .intro hdescribes, writable_of_keys hkeys (by decide) hwritable⟩

theorem Record.exists_describes (record : Record) :
    ∃ node, DescribesRecord node record ∧ Writable [node] := by
  rcases exists_forall₂ record.fields Field.exists_describes with ⟨fields, hfields, hwritable⟩
  exact ⟨_, .intro hfields,
    writable_of_keys (List.Sublist.refl ["name"]) (by decide) hwritable⟩

/-- Every document has a text. -/
theorem Document.exists_writtenXml (document : Document) : ∃ text, document.WrittenXml text := by
  rcases exists_forall₂ document.records Record.exists_describes with ⟨records, hrecords, hwritable⟩
  have hkeys := (optionalAttribute_keys "name" document.package.name).cons_cons "path"
  have hpackage : Writable [.element "package"
      (("path", document.package.path) :: optionalAttribute "name" document.package.name) records] :=
    writable_of_keys hkeys (by decide) hwritable
  rcases hpackage with ⟨text, htext⟩
  exact ⟨String.ofList text, .intro (.intro hrecords) .none htext String.toList_ofList⟩

end Descriptor

end FunctionalOptions
