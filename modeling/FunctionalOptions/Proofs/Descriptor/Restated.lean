import FunctionalOptions.Proofs.Descriptor.PresentationShape
import FunctionalOptions.Proofs.Descriptor.RoundTrip

/-!
# Texts That Say the Same

The order of members, members that mean nothing, members that say what would hold without them
and blanks are presentation. A text can be changed in all of this, and the document that is read
is the same.

What is changed is the tree of the text. A text that is read has one, since it spells the tokens
of a tree and of no other, and every text that spells the tokens of the changed tree is read as
the changed tree is. Blanks are a matter of spelling alone.

## Main definitions

* `Restates`: The tree of a text is put into other words, and spelled again.

## Theorems

* `Reworded.intact`: No fault comes in with other words.
* `Document.ofJson_eq_ok_iff`: The texts that are read as a document.
* `Document.ofJson_restated`: What is read does not depend on how it is presented.
* `Document.ofJson_restated_channel`: A field with a type whose kind comes last.
-/

namespace FunctionalOptions

namespace Descriptor

open Json (Intact Spells Stopped)

/-- No fault comes in with other words. -/
theorem Reworded.intact {role : Role} {tree reworded : Json} (h : Reworded role tree reworded)
    (htree : Intact tree) : Intact reworded := by
  induction h with
  -- The same members, so the same values.
  | permute hperm =>
      cases htree with
      | object hmembers =>
          exact .object fun member hmember => hmembers member (hperm.mem_iff.mpr hmember)
  | insert _ _ hplain =>
      cases htree with
      | object hmembers =>
          refine .object (List.forall_mem_cons.mpr ⟨?_, hmembers⟩)
          cases hplain with
          | text text => exact .string _
          | bool value => exact .bool value
          | null => exact .null
  | drop =>
      cases htree with
      | object hmembers => exact .object (List.forall_mem_cons.mp hmembers).2
  | null =>
      cases htree with
      | object hmembers => exact .object (List.forall_mem_cons.mpr ⟨.null, hmembers⟩)
  | member _ ih =>
      cases htree with
      | object hmembers =>
          rcases List.forall_mem_cons.mp hmembers with ⟨hvalue, hrest⟩
          exact .object (List.forall_mem_cons.mpr ⟨ih hvalue, hrest⟩)
  | item _ ih =>
      cases htree with
      | array hitems =>
          -- Only the item that is changed has to be looked at again.
          rcases List.forall_mem_append.mp hitems with ⟨hbefore, hitems⟩
          rcases List.forall_mem_cons.mp hitems with ⟨hitem, hafter⟩
          exact .array (List.forall_mem_append.mpr
            ⟨hbefore, List.forall_mem_cons.mpr ⟨ih hitem, hafter⟩⟩)

theorem intact_of_reworded {role : Role} {tree reworded : Json}
    (h : Relation.ReflTransGen (Reworded role) tree reworded) (htree : Intact tree) :
    Intact reworded := by
  induction h with
  | refl => exact htree
  | tail _ hstep ih => exact hstep.intact ih

/-- A document is only read where the text of its tree has come to the end. -/
theorem not_stopped_of_readDocumentTree {depth : Nat} {tree : Json} {document : Document}
    (h : readDocumentTree depth tree = .ok document) : ¬Stopped tree := by
  rw [readDocumentTree_eq_ok_iff] at h
  rcases h with ⟨_, _, -, hopens, -⟩
  cases hopens <;> rintro ⟨⟩

/-- A text is read as a document exactly if it spells a tree that is read as the document. -/
theorem Document.ofJson_eq_ok_iff {text : String} {document : Document} :
    Document.ofJson text = .ok document ↔ ∃ tree, Intact tree ∧
      Spells tree.tokenList text.toList ∧ readDocumentTree depthLimit tree = .ok document := by
  rw [Document.ofJson, readWhole]
  constructor
  · intro h
    cases htext : Json.ofText text with
    | mk tree left =>
      rw [htext] at h
      rcases (Except.bind_eq_ok_iff _ _ _).mp h with ⟨read, hread, hend⟩
      -- A document has been read, and it counts if nothing but blanks is left of the text.
      split at hend
      · next hleft =>
        cases hend
        rw [List.isEmpty_iff.mp hleft] at htext
        rcases Json.ofText_eq_iff.mp ⟨htext, not_stopped_of_readDocumentTree hread⟩ with
          ⟨htree, hspells⟩
        exact ⟨tree, htree, hspells, hread⟩
      · cases hend
  · rintro ⟨tree, htree, hspells, hread⟩
    rw [(Json.ofText_eq_iff.mpr ⟨htree, hspells⟩).1]
    exact (Except.bind_eq_ok_iff _ _ _).mpr ⟨document, hread, rfl⟩

/-! ## Texts -/

/-- One text presents what another says: the tree of the text is put into other words, as often
    as it takes, and spelled again. -/
def Restates (text other : String) : Prop :=
  ∃ tree reworded, Intact tree ∧ Spells tree.tokenList text.toList ∧
    Relation.ReflTransGen (Reworded .document) tree reworded ∧
      Spells reworded.tokenList other.toList

/-- What is read does not depend on how it is presented. Every text that is read has a tree, so
    there is one to put into other words. -/
theorem Document.ofJson_restated {text : String} {document : Document}
    (h : Document.ofJson text = .ok document) :
    (∃ tree, Intact tree ∧ Spells tree.tokenList text.toList) ∧
      ∀ other, Restates text other → Document.ofJson other = .ok document := by
  rcases Document.ofJson_eq_ok_iff.mp h with ⟨tree, htree, hspells, hread⟩
  refine ⟨⟨tree, htree, hspells⟩, ?_⟩
  rintro other ⟨same, reworded, hsame, hspellsSame, hreworded, hother⟩
  -- A text spells one tree only, so it is this one that is put into other words.
  obtain rfl : tree = same := Json.eq_of_spells htree hspells hsame hspellsSame
  refine Document.ofJson_eq_ok_iff.mpr ⟨reworded, ?_, hother, ?_⟩
  · exact intact_of_reworded hreworded htree
  · exact readDocumentTree_reworded hreworded hread

/-! ## A document in other words -/

section Inside

variable {role inner : Role} {value other : Json}

/-- A member can be put into other words as often as its value. -/
theorem reworded_member {name : Option String} {members : List (Option String × Json)}
    (hrole : ∀ value, role.ofMember ((name, value) :: members) name = inner)
    (h : Relation.ReflTransGen (Reworded inner) value other) :
    Relation.ReflTransGen (Reworded role) (.object ((name, value) :: members) none)
      (.object ((name, other) :: members) none) := by
  refine Relation.ReflTransGen.lift (fun value => Json.object ((name, value) :: members) none)
    (fun value other hstep => ?_) _ _ h
  exact .member (hrole value ▸ hstep)

/-- The only item of a list can be put into other words as often as it is a value. -/
theorem reworded_item (h : Relation.ReflTransGen (Reworded inner) value other) :
    Relation.ReflTransGen (Reworded (.list inner)) (.arr [value]) (.arr [other]) :=
  Relation.ReflTransGen.lift (fun value => Json.arr [value])
    (fun _ _ => @Reworded.item (.list inner) [] [] _ _) _ _ h

end Inside

/-- A record with one field, a channel that can be used both ways. -/
def Document.channel : Document :=
  ⟨⟨"p", none⟩, [⟨"R", [⟨"F", .chan .both (.basic "int"), none⟩]⟩]⟩

/-- The channel with its kind last, with a note and without a direction. -/
def channelType : Json :=
  .obj [("note", .bool true), ("elem", (Shape.basic "int").toTree), ("kind", .str "chan")]

/-- The field with its members the other way round, and without a tag. -/
def channelField : Json :=
  .obj [("tag", .null), ("type", channelType), ("name", .str "F")]

def channelRecord : Json :=
  .obj [("fields", .arr [channelField]), ("name", .str "R")]

def channelDocument : Json :=
  .obj [("records", .arr [channelRecord]), ("package", .obj [("path", .str "p")])]

theorem written_channelDocument : Json.Written channelDocument := by
  have htype : Json.Written channelType :=
    .obj (List.forall_mem_cons.mpr ⟨.bool true, List.forall_mem_cons.mpr
      ⟨Shape.written_toTree _, List.forall_mem_singleton.mpr (.str _)⟩⟩)
  have hfield : Json.Written channelField :=
    .obj (List.forall_mem_cons.mpr ⟨.null, List.forall_mem_cons.mpr
      ⟨htype, List.forall_mem_singleton.mpr (.str _)⟩⟩)
  have hrecord : Json.Written channelRecord :=
    .obj (List.forall_mem_cons.mpr ⟨.arr (List.forall_mem_singleton.mpr hfield),
      List.forall_mem_singleton.mpr (.str _)⟩)
  exact .obj (List.forall_mem_cons.mpr ⟨.arr (List.forall_mem_singleton.mpr hrecord),
    List.forall_mem_singleton.mpr (Package.written_toTree ⟨"p", none⟩)⟩)

theorem channelDocument_reworded :
    Relation.ReflTransGen (Reworded .document) Document.channel.toTree channelDocument := by
  have htype : Relation.ReflTransGen (Reworded .shape) (Shape.chan .both (.basic "int")).toTree
      channelType := by
    -- The direction is brought to the front and left out, and the note is put in its place.
    refine .head (.permute (.swap ..)) ?_
    refine .head (@Reworded.drop _ _ ⟨"dir", .other, .both⟩ _ (by decide) rfl) ?_
    refine .head (@Reworded.insert _ _ "note" _ rfl (by decide) (.bool true)) ?_
    exact .single (.permute (.cons _ (.swap ..)))
  -- What is changed must be the first member, so the members are swapped beforehand.
  have hfield : Relation.ReflTransGen (Reworded .field)
      (Field.toTree ⟨"F", .chan .both (.basic "int"), none⟩) channelField := by
    refine .head (.permute (.swap ..)) ?_
    refine .tail (reworded_member (fun _ => rfl) htype) ?_
    exact @Reworded.null _ _ ⟨"tag", .other, .null⟩ (by decide) rfl (by decide)
  have hrecord : Relation.ReflTransGen (Reworded .record)
      (Record.toTree ⟨"R", [⟨"F", .chan .both (.basic "int"), none⟩]⟩) channelRecord :=
    .head (.permute (.swap ..)) (reworded_member (fun _ => rfl) (reworded_item hfield))
  exact .head (.permute (.swap ..)) (reworded_member (fun _ => rfl) (reworded_item hrecord))

/-- A field with a type whose kind comes last. -/
theorem Document.ofJson_restated_channel :
    Document.ofJson channel.toJson = .ok channel ∧
      Restates channel.toJson ("\n" ++ channelDocument.text) ∧
        Document.ofJson ("\n" ++ channelDocument.text) = .ok channel := by
  have hread : Document.ofJson channel.toJson = .ok channel :=
    channel.read_toJson (by decide)
  have hrestates : Restates channel.toJson ("\n" ++ channelDocument.text) := by
    refine ⟨channel.toTree, channelDocument, channel.written_toTree.intact,
      channel.written_toTree.spells, channelDocument_reworded, ?_⟩
    rw [String.toList_append]
    exact .blank (by decide) written_channelDocument.spells
  exact ⟨hread, hrestates, (Document.ofJson_restated hread).2 _ hrestates⟩

end Descriptor

end FunctionalOptions
