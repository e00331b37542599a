import FunctionalOptions.Proofs.Files.Operations
import FunctionalOptions.Proofs.Outcome
import FunctionalOptions.Proofs.Text.Split

/-!
# Creating Directories

Which directories there are once a directory has been created with all that lie
above it. Each step asks for one directory, and goes to the one above when that
is the one that is missing; the directories above are found in the text of the
path, piece by piece, and not in the tree. So it has to be shown that the pieces
that a step is left with are those of the path it asks for.

What comes of it is the same whether the run succeeds or fails half-way: every
entry that was there is as it was, and every entry that is new is a directory
that the path goes through.

## Main definitions

* `Path.Above`: The directories above a path.
* `FileTree.KeptOrAdded`, `FileTree.AddsDirectories`: A tree has directories
  that another one lacks.

## Theorems

* `Path.parent?_ofReversedPieces`: The directory above a path in pieces.
* `Filesystem.createWith_adds`, `Filesystem.createDirectories_adds`: Creating
  directories adds directories and does nothing else.
* `Filesystem.createDirectories_of_leads`: A directory that is there is left
  alone.
-/

namespace FunctionalOptions

/-! ## The directories above a path -/

namespace Path

/-- The directories above a path: the one it is in, the one above that, and so
    on. -/
inductive Above (path : String) : String → Prop where
  | parent {directory : String} (h : parent? path = some directory) : Above path directory
  | next {directory above : String} (h : Above path directory)
      (hparent : parent? directory = some above) : Above path above

/-- What is above a directory above a path is above the path. -/
theorem Above.trans {path directory above : String} (h : Above path directory)
    (h' : Above directory above) : Above path above := by
  induction h' with
  | parent hparent => exact .next h hparent
  | next _ hparent ih => exact .next ih hparent

/-- The pieces, the last first, are those of a text: there is no slash in them, and
    that of a relative path does not begin with one. -/
structure Cut (absolute : Bool) (pieces : List (List Char)) : Prop where
  piece : ∀ piece ∈ pieces, '/' ∉ piece
  first : absolute = false → ∀ first ∈ pieces.getLast?, first ≠ []

/-- A text is cut into such pieces. -/
theorem cut_reversedPieces {path : String} (h : path ≠ "") :
    Cut (isAbsolute path) (reversedPieces path) := by
  constructor
  · intro piece hpiece
    exact (Text.mem_splitAt_iff.mp (List.mem_reverse.mp hpiece)).1
  · intro hrelative first hfirst
    rw [reversedPieces, hrelative, List.getLast?_reverse] at hfirst
    rw [isAbsolute, decide_eq_false_iff_not] at hrelative
    -- A relative path has a first character that is no slash, so its first piece is not empty.
    cases htext : path.toList with
    | nil => exact absurd (String.toList_eq_nil_iff.mp htext) h
    | cons c rest =>
        rw [htext] at hfirst hrelative
        rw [if_neg Bool.false_ne_true, Text.splitAt,
          if_neg fun hc => hrelative (congrArg some hc)] at hfirst
        split at hfirst
        · rw [← Option.some.inj hfirst]
          exact List.cons_ne_nil _ _
        · rw [← Option.some.inj hfirst]
          exact List.cons_ne_nil _ _

theorem dropTrivial_suffix (absolute : Bool) (pieces : List (List Char)) :
    dropTrivial absolute pieces <:+ pieces := by
  induction pieces with
  | nil => exact List.suffix_rfl
  | cons piece rest ih =>
      rw [dropTrivial]
      split
      · exact ih.trans (List.suffix_cons piece rest)
      · exact List.suffix_rfl

/-- The pieces of the directory above are the first of the path. -/
theorem above?_suffix {absolute : Bool} {pieces above : List (List Char)}
    (h : above? absolute pieces = some above) : above <:+ pieces := by
  rw [above?] at h
  split at h
  · cases h
  · next piece rest hpieces =>
    rw [← Option.some.inj h]
    have hrest : rest <:+ pieces :=
      (List.suffix_cons piece rest).trans (hpieces ▸ dropTrivial_suffix absolute pieces)
    exact (dropTrivial_suffix absolute rest).trans hrest

theorem Cut.above {absolute : Bool} {pieces above : List (List Char)} (h : Cut absolute pieces)
    (habove : above? absolute pieces = some above) : Cut absolute above := by
  rcases above?_suffix habove with ⟨later, rfl⟩
  refine ⟨fun piece hpiece => h.piece piece (List.mem_append_right _ hpiece), ?_⟩
  intro hrelative first hfirst
  refine h.first hrelative first ?_
  rwa [List.getLast?_append_of_ne_nil _ (List.ne_nil_of_mem (List.mem_of_mem_getLast? hfirst))]

/-- Pieces that are put together are cut apart again. -/
theorem splitAt_intercalate {pieces : List (List Char)} (hne : pieces ≠ [])
    (h : ∀ piece ∈ pieces, '/' ∉ piece) :
    Text.splitAt '/' (['/'].intercalate pieces) = pieces := by
  induction pieces with
  | nil => exact absurd rfl hne
  | cons piece rest ih =>
      rw [List.forall_mem_cons] at h
      -- Behind the first piece comes a slash, unless it is the last.
      cases rest with
      | nil => rw [List.intercalate_singleton, Text.splitAt_of_not_mem h.1]
      | cons second rest =>
          rw [List.intercalate_cons_cons, List.append_assoc, List.singleton_append,
            Text.splitAt_append, Text.splitAt_of_not_mem h.1, ih (List.cons_ne_nil _ _) h.2,
            List.singleton_append]

/-- A path that is put together begins at the root if it is meant to. -/
theorem isAbsolute_ofReversedPieces {absolute : Bool} {pieces : List (List Char)}
    (h : Cut absolute pieces) : isAbsolute (ofReversedPieces absolute pieces) = absolute := by
  rw [isAbsolute, ofReversedPieces, String.toList_ofList]
  cases absolute with
  | true => exact decide_eq_true rfl
  | false =>
      rw [if_neg Bool.false_ne_true, List.nil_append, decide_eq_false_iff_not]
      rcases List.eq_nil_or_concat pieces with rfl | ⟨later, first, rfl⟩
      · rintro ⟨⟩
      · -- The first piece is not empty, and it begins with something else than a slash.
        rw [List.concat_eq_append] at h ⊢
        have hfirst := h.first rfl first List.getLast?_concat
        have hslash := h.piece first (by simp)
        have hhead : (['/'].intercalate (later ++ [first]).reverse).head? = first.head? := by
          rw [List.reverse_append, List.reverse_singleton, List.singleton_append]
          cases later.reverse with
          | nil => rw [List.intercalate_singleton]
          | cons second rest =>
              rw [List.intercalate_cons_cons, List.append_assoc,
                List.head?_append_of_ne_nil _ hfirst]
        rw [hhead]
        exact fun hc => hslash (List.mem_of_mem_head? hc)

/-- The directory above a path in pieces is the one above its text. -/
theorem parent?_ofReversedPieces {absolute : Bool} {pieces : List (List Char)}
    (h : Cut absolute pieces) :
    parent? (ofReversedPieces absolute pieces) =
      (above? absolute pieces).map (ofReversedPieces absolute) := by
  rw [parent?, isAbsolute_ofReversedPieces h]
  by_cases hne : pieces = []
  · -- The root and the empty path have nothing above them.
    rw [hne]
    cases absolute with
    | true => rfl
    | false => rfl
  · have hsplit := splitAt_intercalate (List.reverse_ne_nil_iff.mpr hne)
      fun piece hpiece => h.piece piece (List.mem_reverse.mp hpiece)
    have hpieces : reversedPieces (ofReversedPieces absolute pieces) = pieces := by
      rw [reversedPieces, isAbsolute_ofReversedPieces h, ofReversedPieces, String.toList_ofList]
      cases absolute with
      | true =>
          rw [if_pos rfl, if_pos rfl, List.singleton_append, List.drop_one, List.tail_cons, hsplit,
            List.reverse_reverse]
      | false =>
          rw [if_neg Bool.false_ne_true, if_neg Bool.false_ne_true, List.nil_append, hsplit,
            List.reverse_reverse]
    rw [hpieces]

end Path

/-! ## Trees with more directories -/

namespace FileTree

variable {named : String → Prop} {tree tree' : FileTree}

/-- A location has in the second tree what it has in the first one, or there is a
    directory where nothing was, to which one of certain paths leads. -/
def KeptOrAdded (named : String → Prop) (tree tree' : FileTree) (location : Location) : Prop :=
  tree'.get? location = tree.get? location ∨
    tree.get? location = none ∧ tree'.get? location = some .directory ∧
      ∃ path, named path ∧ tree'.Leads path location

/-- The second tree has what the first one has, and in addition directories to which
    certain paths lead. -/
structure AddsDirectories (named : String → Prop) (tree tree' : FileTree) : Prop where
  current : tree'.current = tree.current
  entry : ∀ location, KeptOrAdded named tree tree' location

namespace AddsDirectories

theorem refl (tree : FileTree) : AddsDirectories named tree tree :=
  ⟨rfl, fun _ => Or.inl rfl⟩

theorem keeps (h : AddsDirectories named tree tree') : KeepsDirectories tree tree' := by
  refine ⟨h.current, fun location hlocation => ?_⟩
  rcases h.entry location with hsame | ⟨hnone, -, -⟩
  · rw [hsame, hlocation]
  · cases hnone.symm.trans hlocation

theorem trans (first second third : FileTree) (h : AddsDirectories named first second)
    (h' : AddsDirectories named second third) : AddsDirectories named first third := by
  refine ⟨h'.current.trans h.current, fun location => ?_⟩
  rcases h'.entry location with hsame | ⟨hnone, hnew, hpath⟩
  · -- A directory that was added first is still there, and its path still leads to it.
    rcases h.entry location with hsame' | ⟨hnone, hnew, path, hpath, hleads⟩
    · exact Or.inl (hsame.trans hsame')
    · exact Or.inr ⟨hnone, hsame.trans hnew, path, hpath, h'.keeps.leads hleads⟩
  · rcases h.entry location with hsame | ⟨-, hnew', -⟩
    · exact Or.inr ⟨hsame.symm.trans hnone, hnew, hpath⟩
    · cases hnew'.symm.trans hnone

/-- Files are what they were. -/
theorem file_iff (h : AddsDirectories named tree tree') (location : Location) (bytes : ByteArray) :
    tree'.get? location = some (.file bytes) ↔ tree.get? location = some (.file bytes) := by
  rcases h.entry location with hsame | ⟨hnone, hnew, -⟩
  · rw [hsame]
  · rw [hnone, hnew]
    constructor <;> rintro ⟨⟩

/-- A new directory is one more. -/
theorem of_withDirectory {path : String} (hpath : named path)
    (h : tree.withDirectory path = .ok tree') : AddsDirectories named tree tree' := by
  rcases withDirectory_eq_ok h with ⟨location, hnone, rfl, hleads⟩
  refine ⟨rfl, fun other => ?_⟩
  rw [KeptOrAdded, get?_put (ne_nil_of_free hnone)]
  by_cases hother : other = location
  · rw [if_pos hother, hother]
    exact Or.inr ⟨hnone, rfl, path, hpath, hleads⟩
  · rw [if_neg hother]
    exact Or.inl rfl

end AddsDirectories

/-- The path is one at which a directory can be created. -/
def Creatable (path : String) : Prop :=
  ∃ tree tree' : FileTree, tree.withDirectory path = .ok tree'

/-- The empty path leads nowhere. -/
theorem not_creatable_empty : ¬Creatable "" := by
  rintro ⟨tree, tree', h⟩
  cases h

/-- A directory that a dot leads to is there already. -/
theorem not_creatable_dot : ¬Creatable "." := by
  rintro ⟨tree, tree', h⟩
  have hpieces : piecesOf "." = .ok ["."] := by decide
  have hdrop : dropSlashes ["."] = ["."] := dropSlashes_concat [] (by decide)
  rw [withDirectory, hpieces] at h
  dsimp only at h
  rw [hdrop, followAll_singleton, start] at h
  split at h
  · cases h
  · next place hplace =>
    rcases follow_place_eq_ok_iff.mp hplace with ⟨hdirectory, location, hnext, rfl⟩
    rw [next, if_pos (Or.inr rfl)] at hnext
    rw [← Except.ok.inj hnext, entry_place, hdirectory] at h
    cases h

end FileTree

/-- Nothing but the empty path is above a dot. -/
theorem Path.Above.of_dot {directory : String} (h : Above "." directory) : directory = "" := by
  induction h with
  | parent h => exact (Option.some.inj h).symm
  | next _ hparent ih =>
      rw [ih] at hparent
      cases hparent

/-! ## The run -/

namespace Filesystem

open FileTree

variable {named : String → Prop}

theorem makeDirectory_run (path : String) (tree : FileTree) :
    (makeDirectory path : OnTree _) tree =
      match tree.withDirectory path with
      | .ok tree' => (.ok (), tree')
      | .error error => (.error error, tree) :=
  OnTree.update_run (·.withDirectory path) tree

theorem makeDirectory_adds {path : String} (hpath : Creatable path → named path) :
    OnTree.Moves (AddsDirectories named) (makeDirectory path : OnTree _) := by
  intro tree
  rw [makeDirectory_run]
  split
  · next tree' hmake => exact .of_withDirectory (hpath ⟨tree, tree', hmake⟩) hmake
  · exact .refl tree

theorem isDirectory_adds (path : String) :
    OnTree.Moves (AddsDirectories named) (isDirectory path : OnTree _) :=
  .of_looks .refl fun _ => rfl

/-- Creating a directory with those above it adds directories and does nothing
    else. -/
theorem createWith_adds {absolute : Bool} {path : String} {pieces : List (List Char)}
    (hcut : Path.Cut absolute pieces)
    (hparent : Path.parent? path =
      (Path.above? absolute pieces).map (Path.ofReversedPieces absolute))
    (hpath : Creatable path → named path)
    (habove : ∀ directory, Path.Above path directory → Creatable directory → named directory) :
    OnTree.Moves (AddsDirectories named) (createWith absolute path pieces : OnTree _) := by
  induction hlength : pieces.length using Nat.strongRecOn generalizing path pieces with
  | ind n ih =>
    -- Whether the directory is there after all is only looked at.
    have hlast (error : FileError) : OnTree.Moves (AddsDirectories named)
        (do if ← isDirectory path then return .ok () else return .error error :
          OnTree (Except FileError Unit)) := by
      refine .bind AddsDirectories.trans (isDirectory_adds path) fun there => ?_
      split
      · exact .of_looks .refl (.pure _)
      · exact .of_looks .refl (.pure _)
    rw [createWith]
    split
    · exact .of_looks .refl (.pure _)
    · refine .bind AddsDirectories.trans (makeDirectory_adds hpath) fun made => ?_
      split
      · exact .of_looks .refl (.pure _)
      · split
        · exact .of_looks .refl (.pure _)
        · -- The directory above has a shorter path, and what is above it is above the path.
          next above hpieces =>
          have hcut' := hcut.above hpieces
          rw [hpieces, Option.map_some] at hparent
          have hfirst := Path.Above.parent hparent
          refine .bind AddsDirectories.trans (ih above.length ?_ hcut' ?_ ?_ ?_ rfl) fun made => ?_
          · rw [← hlength]
            exact Path.above?_length hpieces
          · exact Path.parent?_ofReversedPieces hcut'
          · exact habove _ hfirst
          · exact fun directory hdirectory => habove directory (hfirst.trans hdirectory)
          · split
            · exact .of_looks .refl (.pure _)
            · refine .bind AddsDirectories.trans (makeDirectory_adds hpath) fun made => ?_
              split
              · exact .of_looks .refl (.pure _)
              · exact hlast _
      · exact hlast _

/-- Creating the directory that a file is written into adds directories above the
    file and does nothing else. -/
theorem createDirectories_adds (path : String) :
    OnTree.Moves (AddsDirectories (Path.Above path))
      (createDirectories (directoryOf path) : OnTree _) := by
  have hdot : OnTree.Moves (AddsDirectories (Path.Above path)) (createDirectories "." : OnTree _) :=
    createWith_adds (Path.cut_reversedPieces (by decide)) rfl
      (fun h => absurd h not_creatable_dot)
      fun directory hdirectory h => absurd (hdirectory.of_dot ▸ h) not_creatable_empty
  rw [directoryOf]
  split
  · exact hdot
  · next parent hparent =>
    split
    · exact hdot
    · next hne =>
      have hfirst := Path.Above.parent hparent
      exact createWith_adds (Path.cut_reversedPieces hne) rfl (fun _ => hfirst)
        fun directory hdirectory _ => hfirst.trans hdirectory

/-- A directory that is there is left alone. -/
theorem createDirectories_of_leads {tree : FileTree} {path : String} {location : Location}
    (hleads : tree.Leads path location) (h : tree.get? location = some .directory) :
    (createDirectories path : OnTree _) tree = (.ok (), tree) := by
  have hmake : (makeDirectory path : OnTree _) tree = (.error .alreadyExists, tree) := by
    rw [makeDirectory_run, withDirectory_of_leads hleads h]
  have hthere : (isDirectory path : OnTree _) tree = (true, tree) :=
    congrArg (·, tree) (leadsToDirectory_eq_true_iff.mpr ⟨location, hleads, h⟩)
  rw [createDirectories, createWith]
  split
  · rfl
  · rw [OnTree.bind_run, hmake]
    dsimp only
    rw [OnTree.bind_run, hthere]
    rfl

end Filesystem

end FunctionalOptions
