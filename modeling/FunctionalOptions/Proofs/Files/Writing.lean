import FunctionalOptions.Options.OutputFile
import FunctionalOptions.Proofs.Files.Directories
import FunctionalOptions.Proofs.Options.RenderSafety

/-!
# Writing Whole Files

A file is written in four steps, any of which can fail: the directories, the
temporary file, the move, and after a failed move the removal. What is shown
here is that the steps between do not show. Either the file is at its path with
all of its text, or every file is as it was.

The directories are the exception. They are created first and stay when a later
step fails, so they are counted among what may be new in both cases.

## Theorems

* `FileTree.withRenamed_of_fresh`, `FileTree.exists_withRenamed`: Moving a file
  that was put under a free name changes the target only.
* `Filesystem.writeText_run`: The steps of writing a file.
* `Filesystem.writeText_of_ok`, `Filesystem.writeText_of_error`: What is left
  behind when writing succeeds and when it fails.
* `Filesystem.writeText_again`: A file that has been written can be written
  again.
* `writes_whole_or_nothing`: Files are written as a whole or not at all, and
  nothing is touched when there is nothing to write.
-/

namespace FunctionalOptions

namespace FileTree

variable {tree tree' : FileTree} {path : String} {temporary target : Location}

/-- Moving a file that was put under a free name changes the target only. -/
theorem withRenamed_of_fresh (hfree : tree.get? temporary = none) {bytes : ByteArray}
    (h : (tree.put temporary (.file bytes)).withRenamed temporary path = .ok tree') :
    ∃ target, tree.get? target ≠ some .directory ∧
      tree'.target path = .ok (tree'.place target) ∧ KeepsDirectories tree tree' ∧
      ∀ location, tree'.get? location =
        if location = target then some (.file bytes) else tree.get? location := by
  have hroot := ne_nil_of_free hfree
  have hput : (tree.put temporary (.file bytes)).get? temporary = some (.file bytes) := by
    rw [get?_put hroot, if_pos rfl]
  rcases withRenamed_eq_ok_iff.mp h with ⟨moved, target, hmoved, htarget, rfl⟩
  obtain rfl : bytes = moved := Entry.file.inj (Option.some.inj (hput.symm.trans hmoved))
  rcases target_eq_ok_iff.mp htarget with ⟨other, hplace, -, hentry, -⟩
  obtain rfl := place_inj.mp hplace
  have hfill := KeepsDirectories.put_free hfree (.file bytes)
  -- Neither the file that is taken out nor what it replaces is a directory.
  have hmove : KeepsDirectories (tree.put temporary (.file bytes))
      (((tree.put temporary (.file bytes)).erase temporary).put target (.file bytes)) := by
    refine (KeepsDirectories.erase hroot ?_).trans
      (.put (ne_nil_of_not_directory hentry) ?_ (.file bytes))
    · rw [hput]
      rintro ⟨⟩
    · rw [get?_erase hroot]
      split
      · rintro ⟨⟩
      · exact hentry
  have hthere := (tree.put temporary (.file bytes)).get?_withRenamed hroot
    (ne_nil_of_not_directory hentry) bytes
  refine ⟨target, fun h => hentry (hfill.directory _ h), ?_, hfill.trans hmove, ?_⟩
  · refine hmove.target htarget ?_
    rw [hthere, if_pos rfl]
    rintro ⟨⟩
  · intro location
    rw [hthere, get?_put hroot]
    -- Nothing was under the free name before, and nothing is there afterwards.
    by_cases hlocation : location = temporary
    · rw [if_pos hlocation, hlocation, hfree]
    · rw [if_neg hlocation, if_neg hlocation]

/-- A file that was put under a free name can be moved to a target. -/
theorem exists_withRenamed (hfree : tree.get? temporary = none)
    (htarget : tree.target path = .ok (tree.place target)) (bytes : ByteArray) :
    ∃ tree', (tree.put temporary (.file bytes)).withRenamed temporary path = .ok tree' := by
  have hroot := ne_nil_of_free hfree
  rcases target_eq_ok_iff.mp htarget with ⟨other, hplace, -, hentry, -⟩
  obtain rfl := place_inj.mp hplace
  have hput : (tree.put temporary (.file bytes)).get? target ≠ some .directory := by
    rw [get?_put hroot]
    split
    · rintro ⟨⟩
    · exact hentry
  refine ⟨_, withRenamed_eq_ok_iff.mpr ⟨bytes, target, ?_,
    (KeepsDirectories.put_free hfree _).target htarget hput, rfl⟩⟩
  rw [get?_put hroot, if_pos rfl]

/-- Nothing is left of a file that is put under a free name and taken out again. -/
theorem get?_erase_put (hfree : tree.get? temporary = none) (entry : Entry)
    (location : Location) :
    ((tree.put temporary entry).erase temporary).get? location = tree.get? location := by
  rw [get?_erase (ne_nil_of_free hfree), get?_put (ne_nil_of_free hfree)]
  split
  · next hlocation => rw [hlocation, hfree]
  · rfl

end FileTree

namespace Filesystem

open FileTree

variable {tree tree' : FileTree} {path text : String}

theorem createTemporary_run (directory text : String) (tree : FileTree) :
    (createTemporary directory text : OnTree _) tree =
      match tree.withTemporary directory text with
      | .ok (temporary, tree') => (.ok temporary, tree')
      | .error error => (.error error, tree) := by
  show OnTree.update (·.withTemporary directory text) tree = _
  rw [OnTree.update]
  cases tree.withTemporary directory text with
  | ok answer => rfl
  | error error => rfl

theorem rename_run (temporary : Location) (path : String) (tree : FileTree) :
    (rename temporary path : OnTree _) tree =
      match tree.withRenamed temporary path with
      | .ok tree' => (.ok (), tree')
      | .error error => (.error error, tree) :=
  OnTree.update_run (·.withRenamed temporary path) tree

theorem remove_run (temporary : Location) (tree : FileTree) :
    (remove temporary : OnTree _) tree =
      match tree.withoutFile temporary with
      | .ok tree' => (.ok (), tree')
      | .error error => (.error error, tree) :=
  OnTree.update_run (·.withoutFile temporary) tree

/-- The steps of writing a file. The temporary file can always be removed. -/
theorem writeText_run (path text : String) (tree : FileTree) :
    (writeText path text : OnTree _) tree =
      match (createDirectories (directoryOf path) : OnTree _) tree with
      | (.error error, prepared) => (.error error, prepared)
      | (.ok (), prepared) =>
        match prepared.withTemporary (directoryOf path) text with
        | .error error => (.error error, prepared)
        | .ok (temporary, filled) =>
          match filled.withRenamed temporary path with
          | .ok finished => (.ok (), finished)
          | .error error => (.error error, filled.erase temporary) := by
  rw [writeText, OnTree.bind_run]
  rcases (createDirectories (directoryOf path) : OnTree _) tree with ⟨error | _, prepared⟩
  · rfl
  · dsimp only
    rw [OnTree.bind_run, createTemporary_run]
    cases hfill : prepared.withTemporary (directoryOf path) text with
    | error error => rfl
    | ok answer =>
        rcases answer with ⟨temporary, filled⟩
        dsimp only
        rw [OnTree.bind_run, rename_run]
        cases filled.withRenamed temporary path with
        | ok finished => rfl
        | error error =>
            -- The file that could not be moved is still where it was put, so it can be taken out.
            rcases withTemporary_eq_ok_iff.mp hfill with ⟨location, -, -, -, rfl, rfl⟩
            dsimp only
            rw [OnTree.bind_run, remove_run, withoutFile_eq_ok]
            · rfl
            · rw [get?_put (ne_nil_of_free (prepared.get?_freshName location)), if_pos rfl]

/-- The steps of a write that succeeds. -/
theorem writeText_eq_ok_iff : (writeText path text : OnTree _) tree = (.ok (), tree') ↔
    ∃ prepared temporary filled,
      (createDirectories (directoryOf path) : OnTree _) tree = (.ok (), prepared) ∧
        prepared.withTemporary (directoryOf path) text = .ok (temporary, filled) ∧
        filled.withRenamed temporary path = .ok tree' := by
  rw [writeText_run]
  constructor
  · intro h
    split at h
    · cases h
    · next prepared hprepared =>
      split at h
      · cases h
      · next temporary filled hfilled =>
        split at h
        · next hmoved =>
          obtain rfl := (Prod.mk.inj h).2
          exact ⟨prepared, temporary, filled, hprepared, hfilled, hmoved⟩
        · cases h
  · rintro ⟨prepared, temporary, filled, hprepared, hfilled, hmoved⟩
    rw [hprepared]
    dsimp only
    rw [hfilled]
    dsimp only
    rw [hmoved]

/-- When writing succeeds, the path leads to a file with the text, and apart from
    that directories above the path have been added. -/
theorem writeText_of_ok (h : (writeText path text : OnTree _) tree = (.ok (), tree')) :
    KeepsDirectories tree tree' ∧ ∃ target, tree'.Leads path target ∧
      tree'.get? target = some (.file text.toUTF8) ∧ tree.get? target ≠ some .directory ∧
        ∀ location ≠ target, KeptOrAdded (Path.Above path) tree tree' location := by
  rcases writeText_eq_ok_iff.mp h with ⟨prepared, temporary, filled, hprepared, hfilled, hmoved⟩
  have hadds : AddsDirectories (Path.Above path) tree prepared := by
    have := createDirectories_adds path tree
    rwa [hprepared] at this
  rcases withTemporary_eq_ok_iff.mp hfilled with ⟨directory, -, -, -, rfl, rfl⟩
  rcases withRenamed_of_fresh (prepared.get?_freshName directory) hmoved with
    ⟨target, hfree, htarget, hkeeps, hthere⟩
  rcases target_eq_ok_iff.mp htarget with ⟨other, hplace, hleads, -⟩
  obtain rfl := place_inj.mp hplace
  refine ⟨hadds.keeps.trans hkeeps, target, hleads, ?_,
    fun h => hfree (hadds.keeps.directory _ h), fun location hlocation => ?_⟩
  · rw [hthere, if_pos rfl]
  · -- Away from the target the tree is the one with the directories.
    have hsame : tree'.get? location = prepared.get? location := by
      rw [hthere, if_neg hlocation]
    rcases hadds.entry location with hkept | ⟨hnone, hnew, above, habove, hleads⟩
    · exact Or.inl (hsame.trans hkept)
    · exact Or.inr ⟨hnone, hsame.trans hnew, above, habove, hkeeps.leads hleads⟩

/-- A file that has been written can be written again, with any text, and nothing
    but the text changes. -/
theorem writeText_again (h : (writeText path text : OnTree _) tree = (.ok (), tree'))
    (other : String) :
    ∃ target again, tree'.Leads path target ∧
      (writeText path other : OnTree _) tree' = (.ok (), again) ∧
        again.current = tree'.current ∧ ∀ location, again.get? location =
          if location = target then some (.file other.toUTF8) else tree'.get? location := by
  rcases writeText_eq_ok_iff.mp h with ⟨prepared, temporary, filled, -, hfilled, hmoved⟩
  rcases withTemporary_eq_ok_iff.mp hfilled with
    ⟨directory, hdirectory, hentry, hlength, rfl, rfl⟩
  rcases withRenamed_of_fresh (prepared.get?_freshName directory) hmoved with
    ⟨target, -, htarget, hkeeps, -⟩
  rcases target_eq_ok_iff.mp htarget with ⟨written, hplace, hleads, -⟩
  obtain rfl := place_inj.mp hplace
  -- The directory is there, so the file can be put into it once more.
  have hdirectory' := hkeeps.leads hdirectory
  have hentry' := hkeeps.directory _ hentry
  have hfree := tree'.get?_freshName directory
  rcases exists_withRenamed hfree htarget other.toUTF8 with ⟨again, hagain⟩
  rcases withRenamed_of_fresh hfree hagain with ⟨target', -, htarget', hkeeps', hthere⟩
  rcases target_eq_ok_iff.mp htarget' with ⟨written, hplace, hleads', -⟩
  obtain rfl := place_inj.mp hplace
  obtain rfl := hleads'.unique (hkeeps'.leads hleads)
  refine ⟨target', again, hleads, writeText_eq_ok_iff.mpr ⟨tree', _, _,
    createDirectories_of_leads hdirectory' hentry', ?_, hagain⟩, hkeeps'.current, hthere⟩
  exact withTemporary_eq_ok_iff.mpr ⟨directory, hdirectory', hentry', hlength, rfl, rfl⟩

/-- When writing fails, directories above the path have been added and nothing
    else. -/
theorem writeText_of_error {error : FileError}
    (h : (writeText path text : OnTree _) tree = (.error error, tree')) :
    AddsDirectories (Path.Above path) tree tree' := by
  have hadds := createDirectories_adds path tree
  rw [writeText_run] at h
  split at h
  · next prepared hprepared =>
    rw [hprepared] at hadds
    rwa [← (Prod.mk.inj h).2]
  · next prepared hprepared =>
    rw [hprepared] at hadds
    split at h
    · rwa [← (Prod.mk.inj h).2]
    · next temporary filled hfilled =>
      split at h
      · cases h
      · -- The temporary file was put where nothing was, and is gone again.
        rw [← (Prod.mk.inj h).2]
        rcases withTemporary_eq_ok_iff.mp hfilled with ⟨directory, -, -, -, rfl, rfl⟩
        have hsame := get?_erase_put (prepared.get?_freshName directory) (.file text.toUTF8)
        refine hadds.trans tree prepared _ ⟨rfl, fun location => Or.inl (hsame location)⟩

end Filesystem

open FileTree in
/-- A file is written as a whole or not at all. When writing succeeds, the file at the
    path holds the text; when it fails, every file is what it was. All that is new
    beside is directories above the path. A file that cannot be generated leaves the
    tree as it was. -/
theorem writes_whole_or_nothing :
    (∀ (tree tree' : FileTree) path text (written : Logged GenerationError Unit),
      (writeOutput path text : OnTree _) tree = (written, tree') →
        tree'.current = tree.current ∧
        (written.result = .ok () →
          tree'.contents path = .ok text.toUTF8 ∧
          ∃ target, tree'.Leads path target ∧ tree.get? target ≠ some .directory ∧
            ∀ location ≠ target, KeptOrAdded (Path.Above path) tree tree' location) ∧
        (∀ error, written.result = .error error →
          (∀ location bytes, tree'.get? location = some (.file bytes) ↔
            tree.get? location = some (.file bytes)) ∧
          ∀ location, KeptOrAdded (Path.Above path) tree tree' location)) ∧
    (∀ (tree tree' : FileTree) (provider : Descriptor.Provider) type sourceDirectory path settings
        (outcome : Logged GenerationError String),
      (provider.generateToFile type sourceDirectory path settings : OnTree _) tree =
          (outcome, tree') →
        (∀ error, (provider.generate type settings).result = .error error →
          outcome.result = .error error ∧ tree' = tree) ∧
        ∀ error, outcome.result = .error error →
          (∀ target cause, error ≠ .output target cause) → tree' = tree) := by
  constructor
  · intro tree tree' path text written h
    rw [writeOutput, OnTree.bind_run] at h
    -- What is written is told by the answer, and the answer by the steps above.
    rcases hrun : (Filesystem.writeText path text : OnTree _) tree with ⟨answer, left⟩
    rw [hrun] at h
    cases answer with
    | ok _ =>
        obtain ⟨rfl, rfl⟩ := Prod.mk.inj h
        rcases Filesystem.writeText_of_ok hrun with
          ⟨hkeeps, target, hleads, hfile, hentry, hothers⟩
        refine ⟨hkeeps.current, fun _ => ⟨?_, target, hleads, hentry, hothers⟩, ?_⟩
        · exact contents_eq_ok_iff.mpr ⟨target, hleads, hfile⟩
        · rintro _ ⟨⟩
    | error error =>
        obtain ⟨rfl, rfl⟩ := Prod.mk.inj h
        have hadds := Filesystem.writeText_of_error hrun
        refine ⟨hadds.current, ?_, fun _ _ => ⟨hadds.file_iff, hadds.entry⟩⟩
        rintro ⟨⟩
  · intro tree tree' provider type sourceDirectory path settings outcome h
    rw [Descriptor.Provider.generateToFile] at h
    dsimp only at h
    cases hsource : (provider.generate type settings).result with
    | error error =>
        rw [hsource] at h
        obtain ⟨rfl, rfl⟩ := Prod.mk.inj h
        exact ⟨fun _ h => ⟨h, rfl⟩, fun _ _ _ => rfl⟩
    | ok text =>
        rw [hsource] at h
        dsimp only at h
        rw [OnTree.bind_run] at h
        obtain ⟨rfl, -⟩ := Prod.mk.inj h
        constructor
        · rintro error ⟨⟩
        -- Only the writing can have failed.
        intro error herror hcause
        have hwriting := (writeOutput_error (m := OnTree)
          (destination type sourceDirectory path) text).onTree tree
        simp only [Logged.result_bind_eq_error_iff, Logged.result_pure, hsource] at herror
        rcases herror with herror | ⟨-, -, herror | ⟨-, -, herror⟩⟩
        · cases herror
        · rcases hwriting error herror with ⟨cause, rfl⟩
          exact absurd rfl (hcause _ cause)
        · cases herror

/-- A file tree with a file where a directory would be needed. -/
def FileTree.blocked : FileTree :=
  put ⟨[], []⟩ ["blocker"] (.file "x".toUTF8)

open FileTree in
theorem writes_whole_or_nothing_blocked :
    ((writeOutput "gen/user.go" "package user\n" : OnTree _) blocked).2.contents "gen/user.go" =
        .ok "package user\n".toUTF8 ∧
      (∀ location bytes,
        ((writeOutput "blocker/user.go" "package user\n" : OnTree _) blocked).2.get? location =
            some (.file bytes) ↔ blocked.get? location = some (.file bytes)) ∧
      ((Descriptor.Document.hub.provider.generateToFile "Hub" "." none {} : OnTree _)
        blocked).2 = blocked := by
  have hwritten : ((writeOutput "gen/user.go" "package user\n" : OnTree _)
      blocked).1.result.isOk = true := by
    decide +kernel
  have hblocked : ((writeOutput "blocker/user.go" "package user\n" : OnTree _)
      blocked).1.result.isOk = false := by
    decide +kernel
  have hclash : (Descriptor.Document.hub.provider.generate "Hub" {}).result.isOk = false := by
    decide
  rcases Except.exists_of_isOk hwritten with ⟨_, hwritten⟩
  rcases Except.exists_of_not_isOk hblocked with ⟨_, hblocked⟩
  rcases Except.exists_of_not_isOk hclash with ⟨_, hclash⟩
  refine ⟨?_, ?_, ?_⟩
  · exact ((writes_whole_or_nothing.1 _ _ _ _ _ rfl).2.1 hwritten).1
  · exact ((writes_whole_or_nothing.1 _ _ _ _ _ rfl).2.2 _ hblocked).1
  · exact ((writes_whole_or_nothing.2 _ _ _ "Hub" "." none {} _ rfl).1 _ hclash).2

end FunctionalOptions
