import FunctionalOptions.Proofs.Descriptor.Accepted
import FunctionalOptions.Proofs.Xml.Framed

/-!
# Documents That Are Cut Short

A text that breaks off inside the package element is not read. There is no
checksum and no length to tell; it is only that the last bracket is missing.
Each of the readers has an end of input of its own to report, but they need not
be looked at one by one. What is read as a document follows the grammar, and the
grammar has no element without an end.

Cut right behind the package element, a text is read as the whole is. So where the
element ends is the first place at which the text may end.

## Theorems

* `Document.exists_spelledAll_of_ofXml`: A text that is read is the text of one
  element, which stands for the document.
* `Document.ofXml_frames`: What stands around the element makes no difference.
* `Document.ofXml_truncated`: A text that is cut short is not read.
-/

namespace FunctionalOptions

namespace Descriptor

open Xml (SpelledAll Element Filler Frames Spelled TagText)

/-- A text that is read is the text of one element, which stands for the
    document. -/
theorem Document.exists_spelledAll_of_ofXml {text : String} {document : Document}
    (h : Document.ofXml text = .ok document) :
    ∃ e, SpelledAll [e] text.toList ∧ FitsDocument AllMembers e document := by
  rcases Document.ofXml_eq_ok_iff.mp h with ⟨hending, e, helements, hfits⟩
  refine ⟨e, Xml.spelledAll_iff.mpr ⟨⟨?_, ?_⟩, helements⟩, hfits⟩
  · -- Without a fault the text comes to its end, and no element is left open there.
    rcases Xml.assemble_ending ⟨[], []⟩ (Xml.markup (Xml.skipByteOrderMark text.toList)) with
      hend | ⟨fault, hfault⟩
    · exact hend
    · exact absurd hfault (hending fault)
  · rcases hfits with ⟨tag, inside, hholds, -⟩
    rw [helements, List.forall_mem_singleton]
    exact ⟨tag, inside, hholds⟩

/-- What stands around the element makes no difference. -/
theorem Document.ofXml_frames {e : Element} {before element after : List Char}
    (h : Frames e before element after) :
    Document.ofXml (String.ofList (before ++ (element ++ after))) =
      readElements none .endOfText [e] := by
  have hall : SpelledAll [e] (String.ofList (before ++ (element ++ after))).toList := by
    rw [String.toList_ofList]
    exact Xml.spelledAll_singleton_iff.mpr ⟨_, _, _, rfl, h⟩
  rcases Xml.spelledAll_iff.mp hall with ⟨hcomplete, helements⟩
  rw [Document.ofXml, hcomplete.ending, helements]

/-- A text that is read has a package element, and where that ends is the first place
    at which the text may end: the text up to there is read as the whole is, and one
    that is cut off before is not read. -/
theorem Document.ofXml_truncated {text : String} {document : Document}
    (h : Document.ofXml text = .ok document) :
    (∃ before element after e, text.toList = before ++ (element ++ after) ∧
      Frames e before element after ∧ FitsDocument AllMembers e document) ∧
    ∀ before element after e, text.toList = before ++ (element ++ after) →
      Frames e before element after →
        Document.ofXml (String.ofList (before ++ element)) = .ok document ∧
          ∀ cut : String, cut.toList <+: text.toList →
            cut.toList.length < (before ++ element).length →
              ∃ error, Document.ofXml cut = .error error := by
  constructor
  · rcases exists_spelledAll_of_ofXml h with ⟨e, hall, hfits⟩
    rcases Xml.spelledAll_singleton_iff.mp hall with ⟨before, element, after, htext, hframes⟩
    exact ⟨before, element, after, e, htext, hframes, hfits⟩
  · intro before element after e htext hframes
    constructor
    · -- What stands around the element may be left out, and so may what stands behind it.
      have hended := ofXml_frames ⟨hframes.before, hframes.element, Xml.filler_nil⟩
      rw [List.append_nil] at hended
      rw [hended, ← ofXml_frames hframes, ← htext, String.ofList_toList, h]
    · rintro cut ⟨rest, hrest⟩ hlength
      -- If the cut text were read it would hold a whole element, and the element is not over yet.
      cases hcut : Document.ofXml cut with
      | error error => exact ⟨error, rfl⟩
      | ok other =>
          rcases exists_spelledAll_of_ofXml hcut with ⟨e', hall, -⟩
          exact absurd hall (hframes.not_spelledAll (hrest.trans htext) hlength)

/-- A text without the last bracket of its package element. -/
theorem Document.ofXml_truncated_bracket :
    (Document.ofXml "\n<package path='p'><record name='R'/></package>\n").isOk = true ∧
      ∃ error, Document.ofXml "\n<package path='p'><record name='R'/></package" = .error error := by
  have hisOk :
      (Document.ofXml "\n<package path='p'><record name='R'/></package>\n").isOk = true := by
    decide +kernel
  have hstart : TagText (.start (.ofText "package path='p'".toList))
      ('<' :: ("package path='p'".toList ++ ['>'])) :=
    @TagText.of_scanTag _ _ [] (by decide) (by decide) (by decide) (by decide)
  have hrecord : TagText (.empty (.ofText "record name='R'".toList))
      ('<' :: ("record name='R'/".toList ++ ['>'])) :=
    @TagText.of_scanTag _ _ [] (by decide) (by decide) (by decide) (by decide)
  have hclose : TagText (.close (Xml.Tag.ofText "package path='p'".toList).name)
      ('<' :: ("/package".toList ++ ['>'])) :=
    @TagText.of_scanTag _ _ [] (by decide) (by decide) (by decide) (by decide)
  have hblank : Filler ['\n'] :=
    Xml.filler_of_plainText (.char (by decide) (by decide) .nil)
  have hinside := SpelledAll.cons Xml.filler_nil (.empty hrecord) (.filler Xml.filler_nil)
  rcases Except.exists_of_isOk hisOk with ⟨document, hread⟩
  refine ⟨hisOk, ?_⟩
  exact ((Document.ofXml_truncated hread).2 _ _ _ _ (by decide)
    ⟨hblank, .node hstart hinside hclose, hblank⟩).2 _
    (List.isPrefixOf_iff_prefix.mp (by decide)) (by decide)

end Descriptor

end FunctionalOptions
