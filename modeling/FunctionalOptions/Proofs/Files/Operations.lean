import FunctionalOptions.Proofs.Files.Resolution
import FunctionalOptions.Proofs.Text.Decimal
import Mathlib.Data.List.Nodup
import Mathlib.Data.List.Perm.Subperm

/-!
# What File Operations Do

The operations that writing a file is made of, each by what it finds and what
it leaves. A new entry only ever appears where nothing was: a directory where
its path leads, and a temporary file under a name that is not taken. Such a name
is always found, because there are more names to choose from than entries in the
directory.

Only the move of a file replaces anything, and never a directory.

## Theorems

* `FileTree.freshName_free`: The name of a temporary file is not taken.
* `FileTree.withDirectory_eq_ok`: A new directory is where its path leads.
* `FileTree.withDirectory_of_leads`: A directory is not created twice.
* `FileTree.withTemporary_eq_ok_iff`: Where a temporary file is put.
* `FileTree.get?_withRenamed`: A moved file is at its target and nowhere else.
-/

namespace FunctionalOptions

namespace FileTree

variable {tree tree' : FileTree} {location other : Location} {path directory text : String}

/-- A location without a directory is not the root. -/
theorem ne_nil_of_not_directory (h : tree.get? location ≠ some .directory) : location ≠ [] := by
  rintro rfl
  exact h tree.get?_nil

theorem not_directory_of_free (h : tree.get? location = none) :
    tree.get? location ≠ some .directory := by
  rw [h]
  rintro ⟨⟩

/-- A location without an entry is not the root. -/
theorem ne_nil_of_free (h : tree.get? location = none) : location ≠ [] :=
  ne_nil_of_not_directory (not_directory_of_free h)

/-- Putting an entry where there is none keeps the directories. -/
theorem KeepsDirectories.put_free (h : tree.get? location = none) (entry : Entry) :
    KeepsDirectories tree (tree.put location entry) :=
  .put (ne_nil_of_free h) (not_directory_of_free h) entry

/-! ## Directories -/

/-- From a directory the empty piece leads nowhere else. -/
theorem followAll_slashes (h : tree.get? location = some .directory) {slashes : List String}
    (hslashes : ∀ piece ∈ slashes, piece = "") :
    tree.followAll (tree.place location) slashes = .ok (tree.place location) := by
  induction slashes with
  | nil => rfl
  | cons piece rest ih =>
      rw [List.forall_mem_cons] at hslashes
      rw [followAll, follow_of_directory h, hslashes.1]
      exact ih hslashes.2

/-- A new directory is where its path leads, and nothing was there before. -/
theorem withDirectory_eq_ok (h : tree.withDirectory path = .ok tree') :
    ∃ location, tree.get? location = none ∧ tree' = tree.put location .directory ∧
      tree'.Leads path location := by
  rw [withDirectory] at h
  split at h
  · cases h
  · next pieces hpieces =>
    split at h
    · cases h
    · next place hplace =>
      split at h
      · cases h
      · next hentry =>
        rcases followAll_eq_place hplace with ⟨location, rfl⟩
        rw [location_place] at h
        rw [entry_place] at hentry
        obtain rfl := Except.ok.inj h
        have hkeeps := KeepsDirectories.put_free hentry .directory
        have hthere : (tree.put location .directory).get? location = some .directory := by
          rw [get?_put (ne_nil_of_free hentry), if_pos rfl]
        refine ⟨location, hentry, rfl, leads_iff.mpr ⟨pieces, hpieces, ?_⟩⟩
        -- The slashes behind the path are followed in the directory that is there now.
        rcases exists_dropSlashes_append pieces with ⟨slashes, hslashes, hempty⟩
        rw [hslashes, followAll_append, hkeeps.followAll_start hplace]
        exact followAll_slashes hthere hempty

/-- A directory is not created twice. -/
theorem withDirectory_of_leads (hleads : tree.Leads path location)
    (h : tree.get? location = some .directory) :
    tree.withDirectory path = .error .alreadyExists := by
  rcases leads_iff.mp hleads with ⟨pieces, hpieces, hfollow⟩
  rcases exists_dropSlashes_append pieces with ⟨slashes, hslashes, hempty⟩
  rw [hslashes, followAll_append, Except.bind_eq_ok_iff] at hfollow
  rcases hfollow with ⟨place, hplace, hrest⟩
  rw [withDirectory, hpieces]
  dsimp only
  rw [hplace]
  dsimp only
  -- Without slashes the path leads to the directory, and with them from one.
  have hentry : place.entry = some .directory := by
    rcases followAll_eq_place hplace with ⟨other, rfl⟩
    cases slashes with
    | nil => rw [Except.ok.inj hrest, entry_place, h]
    | cons piece slashes =>
        rw [followAll] at hrest
        split at hrest
        · cases hrest
        · next hfollow => exact directory_of_follow hfollow
  rw [hentry]

/-! ## Temporary files -/

theorem temporaryName_injective : Function.Injective temporaryName := by
  intro i j h
  have hchars := congrArg String.toList h
  rw [temporaryName, temporaryName, Text.toList_append_toString,
    Text.toList_append_toString] at hchars
  exact Text.toDigits_injective (List.append_cancel_left hchars)

/-- The name of a temporary file is not taken. -/
theorem freshName_free (branch : Branch) :
    (branch.child (freshName branch)).entry = none := by
  rw [freshName]
  cases hfind : (List.range (branch.children.length + 1)).find? fun n =>
      (branch.child (temporaryName n)).entry.isNone with
  | some n =>
      have hfree := List.find?_some hfind
      exact Option.isNone_iff_eq_none.mp hfree
  | none =>
      -- Every name that was tried belongs to a branch of its own, and one more was
      -- tried than there are branches.
      have htaken : (List.range (branch.children.length + 1)).map temporaryName ⊆
          branch.children.map Prod.fst := by
        intro name hname
        rcases List.mem_map.mp hname with ⟨n, hn, rfl⟩
        have htaken := List.find?_eq_none.mp hfind n hn
        by_contra hmissing
        have hlookup : branch.children.lookup (temporaryName n) = none :=
          List.lookup_eq_none_iff.mpr fun entry hentry => by
            rw [bne_iff_ne]
            intro heq
            exact hmissing (List.mem_map.mpr ⟨entry, hentry, heq.symm⟩)
        rw [Branch.child, hlookup] at htaken
        exact htaken rfl
      have hdistinct : ((List.range (branch.children.length + 1)).map temporaryName).Nodup :=
        List.Nodup.map temporaryName_injective List.nodup_range
      have hlength := (List.subperm_of_subset hdistinct htaken).length_le
      rw [List.length_map, List.length_map, List.length_range] at hlength
      omega

/-- Where a temporary file is put: in the directory, under a name that is not
    taken. -/
theorem withTemporary_eq_ok_iff {temporary : Location} :
    tree.withTemporary directory text = .ok (temporary, tree') ↔
      ∃ location, tree.Leads directory location ∧ tree.get? location = some .directory ∧
        (Path.join directory (temporaryName 0)).utf8ByteSize ≤ pathLimit ∧
        location ++ [freshName (tree.place location).branch] = temporary ∧
        tree.put temporary (.file text.toUTF8) = tree' := by
  constructor
  · intro h
    rw [withTemporary] at h
    split at h
    · cases h
    · next place hplace =>
      split at h
      · cases h
      · next hlength =>
        split at h
        · cases h
        · cases h
        · next hentry =>
          rcases Prod.mk.inj (Except.ok.inj h) with ⟨rfl, rfl⟩
          refine ⟨place.location, leads_of_resolve hplace, ?_, Nat.le_of_not_lt hlength, ?_, rfl⟩
          · rwa [← entry_place, ← resolve_eq_place hplace]
          · rw [← resolve_eq_place hplace]
  · rintro ⟨location, hleads, hentry, hlength, rfl, rfl⟩
    rw [withTemporary, hleads]
    dsimp only
    rw [if_neg (Nat.not_lt.mpr hlength), entry_place, hentry]
    dsimp only
    rw [location_place]

/-- Nothing was where a temporary file is put. -/
theorem get?_freshName (tree : FileTree) (location : Location) :
    tree.get? (location ++ [freshName (tree.place location).branch]) = none := by
  rw [get?, Branch.descend_append]
  exact freshName_free _

/-! ## Moving a file -/

theorem withRenamed_eq_ok_iff {source : Location} : tree.withRenamed source path = .ok tree' ↔
    ∃ bytes location, tree.get? source = some (.file bytes) ∧
      tree.target path = .ok (tree.place location) ∧
      (tree.erase source).put location (.file bytes) = tree' := by
  simp only [withRenamed, Except.bind_eq_ok_iff, contentsAt_eq_ok_iff]
  constructor
  · rintro ⟨bytes, hbytes, place, hplace, h⟩
    rcases target_eq_ok_iff.mp hplace with ⟨location, rfl, -⟩
    rw [location_place] at h
    exact ⟨bytes, location, hbytes, hplace, Except.ok.inj h⟩
  · rintro ⟨bytes, location, hbytes, hplace, rfl⟩
    refine ⟨bytes, hbytes, tree.place location, hplace, ?_⟩
    rw [location_place]
    rfl

/-- A moved file is at its target and nowhere else. -/
theorem get?_withRenamed (tree : FileTree) {source target : Location} (hsource : source ≠ [])
    (htarget : target ≠ []) (bytes : ByteArray) (location : Location) :
    ((tree.erase source).put target (.file bytes)).get? location =
      if location = target then some (.file bytes)
      else if location = source then none else tree.get? location := by
  rw [get?_put htarget, get?_erase hsource]

theorem withoutFile_eq_ok {source : Location} {bytes : ByteArray}
    (h : tree.get? source = some (.file bytes)) :
    tree.withoutFile source = .ok (tree.erase source) := by
  rw [withoutFile, contentsAt_eq_ok_iff.mpr h]
  rfl

end FileTree

end FunctionalOptions
