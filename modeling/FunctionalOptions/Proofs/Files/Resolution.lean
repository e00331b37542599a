import FunctionalOptions.Files.FileTree
import FunctionalOptions.Proofs.Fallible
import Mathlib.Data.List.TakeWhile

/-!
# Where Paths Lead

The location that a path leads to, and what may happen to a tree without a path
leading elsewhere. A file is written in several steps, each of which changes the
tree, and the next step takes up the same texts again: the directory that has
been created, the path that the file is moved to. They have to mean the same
locations as before.

Of all that a tree holds, a path needs only the directories it goes through. So
nothing else is asked of a change than that directories stay directories. Files
may come and go, and new directories may appear.

## Main definitions

* `FileTree.next`: The location that a piece of a path stands for.
* `FileTree.Leads`: A path leads to a location.
* `FileTree.KeepsDirectories`: What is a directory in one tree is one in the
  other.

## Theorems

* `FileTree.follow_place_eq_ok_iff`: A piece is followed from directories only,
  and leads to the location it stands for.
* `FileTree.KeepsDirectories.leads`: A path leads to the same location as long
  as directories stay directories.
* `FileTree.target_eq_ok_iff`: Where a file may be moved to.
-/

namespace FunctionalOptions

namespace FileTree

variable {tree tree' : FileTree} {location other : Location} {path : String}

/-- What is at a place is what the tree has at its location. -/
theorem entry_place (tree : FileTree) (location : Location) :
    (tree.place location).entry = tree.get? location := rfl

theorem location_place (tree : FileTree) (location : Location) :
    (tree.place location).location = location :=
  List.reverse_reverse location

theorem place_inj : tree.place location = tree.place other ↔ location = other := by
  refine ⟨fun h => ?_, fun h => h ▸ rfl⟩
  rw [← tree.location_place location, h, tree.location_place]

/-! ## One piece -/

/-- The location that a piece of a path stands for, seen from a directory. -/
def next (location : Location) (piece : String) : Except FileError Location :=
  if piece = "" ∨ piece = "." then .ok location
  else if piece = ".." then .ok location.dropLast
  else if nameLimit < piece.utf8ByteSize then .error .nameTooLong
  else .ok (location ++ [piece])

/-- From a directory a piece leads to the location it stands for. -/
theorem follow_of_directory (h : tree.get? location = some .directory) (piece : String) :
    tree.follow (tree.place location) piece = (next location piece).map tree.place := by
  rw [follow, entry_place, h, next]
  dsimp only
  rw [apply_ite (Except.map tree.place), apply_ite (Except.map tree.place),
    apply_ite (Except.map tree.place), location_place, child_place]
  rfl

/-- A piece is followed from directories only. -/
theorem directory_of_follow {piece : String} {place : Place}
    (h : tree.follow (tree.place location) piece = .ok place) :
    tree.get? location = some .directory := by
  rw [follow, entry_place] at h
  split at h
  · cases h
  · cases h
  · assumption

/-- A piece is followed from directories only, and leads to the location it stands
    for. -/
theorem follow_place_eq_ok_iff {piece : String} {place : Place} :
    tree.follow (tree.place location) piece = .ok place ↔
      tree.get? location = some .directory ∧
        ∃ other, next location piece = .ok other ∧ tree.place other = place := by
  constructor
  · intro h
    have hdirectory := directory_of_follow h
    rw [follow_of_directory hdirectory] at h
    -- Only the names that are too long stand for no location.
    cases hnext : next location piece with
    | error error =>
        rw [hnext] at h
        cases h
    | ok other =>
        rw [hnext] at h
        exact ⟨hdirectory, other, rfl, Except.ok.inj h⟩
  · rintro ⟨hdirectory, other, hnext, rfl⟩
    rw [follow_of_directory hdirectory, hnext]
    rfl

/-! ## Many pieces -/

/-- Pieces are followed in two parts. -/
theorem followAll_append (tree : FileTree) (place : Place) (first rest : List String) :
    tree.followAll place (first ++ rest) =
      tree.followAll place first >>= fun place => tree.followAll place rest := by
  induction first generalizing place with
  | nil => rfl
  | cons piece first ih =>
      rw [List.cons_append, followAll, followAll]
      cases tree.follow place piece with
      | error error => rfl
      | ok place => exact ih place

theorem followAll_singleton (tree : FileTree) (place : Place) (piece : String) :
    tree.followAll place [piece] = tree.follow place piece := by
  rw [followAll]
  cases tree.follow place piece with
  | error error => rfl
  | ok place => rfl

/-- The path leads to the location, at which there need not be anything. -/
def Leads (tree : FileTree) (path : String) (location : Location) : Prop :=
  tree.resolve path = .ok (tree.place location)

/-- A path leads to one location at most. -/
theorem Leads.unique (h : tree.Leads path location) (h' : tree.Leads path other) :
    location = other :=
  place_inj.mp (Except.ok.inj (h.symm.trans h'))

/-- Whatever a path leads to has a location. -/
theorem leads_of_resolve {place : Place} (h : tree.resolve path = .ok place) :
    tree.Leads path place.location := by
  rw [Leads, ← resolve_eq_place h, h]

theorem leads_iff : tree.Leads path location ↔ ∃ pieces, piecesOf path = .ok pieces ∧
    tree.followAll (tree.start path) pieces = .ok (tree.place location) := by
  rw [Leads, resolve]
  cases piecesOf path with
  | error error =>
      constructor
      · rintro ⟨⟩
      · rintro ⟨_, ⟨⟩, _⟩
  | ok pieces =>
      constructor
      · exact fun h => ⟨pieces, rfl, h⟩
      · rintro ⟨others, hpieces, h⟩
        rwa [← Except.ok.inj hpieces] at h

/-- What a path is read as having is what is at its location. -/
theorem contents_of_leads (h : tree.Leads path location) :
    tree.contents path = tree.contentsAt location := by
  rw [contents, h, contentsAt]
  rfl

theorem contentsAt_eq_ok_iff {bytes : ByteArray} :
    tree.contentsAt location = .ok bytes ↔ tree.get? location = some (.file bytes) := by
  rw [contentsAt]
  -- Three cases: nothing there, a directory, a file.
  split
  · next h =>
    rw [h]
    constructor <;> rintro ⟨⟩
  · next h =>
    rw [h]
    constructor <;> rintro ⟨⟩
  · next others h =>
    rw [h, Except.ok.injEq, Option.some.injEq, Entry.file.injEq]

/-- A file is read by a path that leads to it. -/
theorem contents_eq_ok_iff {bytes : ByteArray} : tree.contents path = .ok bytes ↔
    ∃ location, tree.Leads path location ∧ tree.get? location = some (.file bytes) := by
  constructor
  · intro h
    cases hresolve : tree.resolve path with
    | error error =>
        rw [contents, hresolve] at h
        cases h
    | ok place =>
        have hleads := leads_of_resolve hresolve
        rw [contents_of_leads hleads, contentsAt_eq_ok_iff] at h
        exact ⟨place.location, hleads, h⟩
  · rintro ⟨location, hleads, h⟩
    rwa [contents_of_leads hleads, contentsAt_eq_ok_iff]

theorem leadsToDirectory_eq_true_iff : tree.leadsToDirectory path = true ↔
    ∃ location, tree.Leads path location ∧ tree.get? location = some .directory := by
  rw [leadsToDirectory]
  cases hresolve : tree.resolve path with
  | error error =>
      constructor
      · rintro ⟨⟩
      · rintro ⟨_, h, _⟩
        cases hresolve.symm.trans h
  | ok place =>
      -- What was resolved is the location that is asked about.
      have hleads := leads_of_resolve hresolve
      rw [decide_eq_true_eq]
      constructor
      · intro h
        refine ⟨place.location, hleads, ?_⟩
        rwa [← entry_place, ← resolve_eq_place hresolve]
      · rintro ⟨location, hlocation, h⟩
        rwa [Except.ok.inj (hresolve.symm.trans hlocation)]

/-! ## Trees that keep their directories -/

/-- What is a directory in the one tree is one in the other, and paths start where
    they did. -/
structure KeepsDirectories (tree tree' : FileTree) : Prop where
  current : tree'.current = tree.current
  directory : ∀ location, tree.get? location = some .directory →
    tree'.get? location = some .directory

namespace KeepsDirectories

theorem trans {tree'' : FileTree} (h : KeepsDirectories tree tree')
    (h' : KeepsDirectories tree' tree'') : KeepsDirectories tree tree'' :=
  ⟨h'.current.trans h.current, fun _ hlocation => h'.directory _ (h.directory _ hlocation)⟩

/-- Pieces lead to the same location. The directories on the way are there still. -/
theorem followAll (h : KeepsDirectories tree tree') {pieces : List String}
    (hfollow : tree.followAll (tree.place location) pieces = .ok (tree.place other)) :
    tree'.followAll (tree'.place location) pieces = .ok (tree'.place other) := by
  induction pieces generalizing location with
  | nil => rw [place_inj.mp (Except.ok.inj hfollow), FileTree.followAll]
  | cons piece rest ih =>
      rw [FileTree.followAll] at hfollow ⊢
      cases hpiece : tree.follow (tree.place location) piece with
      | error error =>
          rw [hpiece] at hfollow
          cases hfollow
      | ok place =>
          rw [hpiece] at hfollow
          -- The step went on from a directory, which the other tree has as well.
          rcases follow_place_eq_ok_iff.mp hpiece with ⟨hdirectory, inner, hnext, rfl⟩
          rw [follow_place_eq_ok_iff.mpr ⟨h.directory _ hdirectory, inner, hnext, rfl⟩]
          exact ih hfollow

/-- The pieces of a path lead to the same location from where the path starts. -/
theorem followAll_start (h : KeepsDirectories tree tree') {pieces : List String}
    (hfollow : tree.followAll (tree.start path) pieces = .ok (tree.place other)) :
    tree'.followAll (tree'.start path) pieces = .ok (tree'.place other) := by
  rw [start] at hfollow ⊢
  rw [h.current]
  exact h.followAll hfollow

/-- A path leads to the same location as long as directories stay directories. -/
theorem leads (h : KeepsDirectories tree tree') (hleads : tree.Leads path location) :
    tree'.Leads path location := by
  rcases leads_iff.mp hleads with ⟨pieces, hpieces, hfollow⟩
  exact leads_iff.mpr ⟨pieces, hpieces, h.followAll_start hfollow⟩

/-- Putting an entry where there is no directory keeps the directories. -/
theorem put (hroot : location ≠ []) (h : tree.get? location ≠ some .directory) (entry : Entry) :
    KeepsDirectories tree (tree.put location entry) := by
  refine ⟨rfl, fun other hother => ?_⟩
  rw [get?_put hroot, if_neg, hother]
  -- A directory that was there is elsewhere than what is put.
  rintro rfl
  exact h hother

/-- So does taking out an entry that is no directory. -/
theorem erase (hroot : location ≠ []) (h : tree.get? location ≠ some .directory) :
    KeepsDirectories tree (tree.erase location) := by
  refine ⟨rfl, fun other hother => ?_⟩
  rw [get?_erase hroot, if_neg, hother]
  rintro rfl
  exact h hother

end KeepsDirectories

/-! ## Targets -/

/-- Behind the pieces that name a directory stand empty ones. -/
theorem exists_dropSlashes_append (pieces : List String) :
    ∃ slashes, pieces = dropSlashes pieces ++ slashes ∧ ∀ piece ∈ slashes, piece = "" := by
  -- Slashes at the end of a path are empty pieces at the front of the reversed list.
  refine ⟨(pieces.reverse.takeWhile (· = "")).reverse, ?_, fun piece hpiece => ?_⟩
  · rw [dropSlashes, ← List.reverse_append, List.takeWhile_append_dropWhile, List.reverse_reverse]
  · have hslash := List.mem_takeWhile_imp (List.mem_reverse.mp hpiece)
    exact of_decide_eq_true hslash

/-- Pieces that are no fewer without slashes have none at their end. -/
theorem dropSlashes_eq_self {pieces : List String}
    (h : ¬(dropSlashes pieces).length < pieces.length) : dropSlashes pieces = pieces := by
  rcases exists_dropSlashes_append pieces with ⟨slashes, hslashes, -⟩
  have hlength := congrArg List.length hslashes
  rw [List.length_append] at hlength
  have hnil : slashes = [] := List.eq_nil_of_length_eq_zero (by omega)
  -- So what stands behind them is nothing.
  rw [hnil, List.append_nil] at hslashes
  exact hslashes.symm

/-- Pieces with a name at their end are not followed by slashes. -/
theorem dropSlashes_concat (front : List String) {name : String} (h : name ≠ "") :
    dropSlashes (front ++ [name]) = front ++ [name] := by
  rw [dropSlashes, List.reverse_append, List.reverse_singleton, List.singleton_append,
    List.dropWhile_cons_of_neg (by simpa using h), List.reverse_cons, List.reverse_reverse]

/-- The pieces without slashes end with a name, if they do not end at once. -/
theorem ne_of_getLast?_dropSlashes {pieces : List String} {name : String}
    (h : (dropSlashes pieces).getLast? = some name) : name ≠ "" := by
  rw [dropSlashes, List.getLast?_reverse] at h
  -- The last piece that is left is the one at which the dropping stopped.
  have hstop := List.head?_dropWhile_not (· = "") pieces.reverse
  rw [h] at hstop
  exact of_decide_eq_false hstop

/-- A target is a path with a name of its own at its end, which does not lead to a
    directory. -/
theorem target_eq_ok_iff {place : Place} : tree.target path = .ok place ↔
    ∃ location, place = tree.place location ∧ tree.Leads path location ∧
      tree.get? location ≠ some .directory ∧
        ∃ front name, piecesOf path = .ok (front ++ [name]) ∧ name ∉ ["", ".", ".."] := by
  simp only [target, Except.bind_eq_ok_iff, Except.mapError_eq_ok_iff]
  constructor
  · rintro ⟨pieces, hpieces, directory, hdirectory, place', hplace, h⟩
    split at h
    · cases h
    · next name hname =>
      split at h
      · cases h
      · next hdots =>
        split at h
        · cases h
        · next hlength =>
          -- Nothing or a file is there, since a directory is refused.
          have hentry : place' = place ∧ place'.entry ≠ some .directory := by
            split at h
            · cases h
            · next hentry => exact ⟨Except.ok.inj h, hentry⟩
          rcases hentry with ⟨rfl, hentry⟩
          -- No slashes stand behind the name, so the path is followed to its end.
          have hempty := ne_of_getLast?_dropSlashes hname
          rw [dropSlashes_eq_self hlength] at hname hdirectory hplace
          rcases List.getLast?_eq_some_iff.mp hname with ⟨front, rfl⟩
          have hresolve : tree.resolve path = .ok place' := by
            rw [resolve, hpieces]
            dsimp only
            rw [List.dropLast_concat] at hdirectory
            rw [List.getLast?_concat] at hplace
            rw [followAll_append, hdirectory, ← hplace]
            exact followAll_singleton tree directory name
          refine ⟨place'.location, resolve_eq_place hresolve, leads_of_resolve hresolve, ?_, front,
            name, hpieces, ?_⟩
          · rwa [← entry_place, ← resolve_eq_place hresolve]
          · rw [not_or] at hdots
            simp only [List.mem_cons, List.not_mem_nil, or_false, not_or]
            exact ⟨hempty, hdots⟩
  · rintro ⟨location, rfl, hleads, hentry, front, name, hpieces, hname⟩
    simp only [List.mem_cons, List.not_mem_nil, or_false, not_or] at hname
    -- The way to the last piece is cut off from the path that leads there.
    rcases leads_iff.mp hleads with ⟨_, hpieces', hfollow⟩
    obtain rfl := Except.ok.inj (hpieces.symm.trans hpieces')
    rw [followAll_append, Except.bind_eq_ok_iff] at hfollow
    rcases hfollow with ⟨directory, hdirectory, hfollow⟩
    rw [followAll_singleton] at hfollow
    refine ⟨_, hpieces, directory, ?_, tree.place location, ?_, ?_⟩
    · rw [dropSlashes_concat front hname.1, List.dropLast_concat, hdirectory]
    · rw [dropSlashes_concat front hname.1, List.getLast?_concat, Option.getD_some, hfollow]
    · rw [dropSlashes_concat front hname.1, List.getLast?_concat]
      dsimp only
      -- None of the refusals applies: the name is no dots, and no slash was dropped.
      rw [if_neg (not_or.mpr hname.2), if_neg (Nat.lt_irrefl _)]
      split
      · next h => exact absurd h hentry
      · rfl

/-- A target stays one as long as directories stay directories and none takes its
    place. -/
theorem KeepsDirectories.target (h : KeepsDirectories tree tree')
    (htarget : tree.target path = .ok (tree.place location))
    (hentry : tree'.get? location ≠ some .directory) :
    tree'.target path = .ok (tree'.place location) := by
  rcases target_eq_ok_iff.mp htarget with ⟨other, hplace, hleads, -, hname⟩
  obtain rfl := place_inj.mp hplace
  exact target_eq_ok_iff.mpr ⟨location, rfl, h.leads hleads, hentry, hname⟩

end FileTree

end FunctionalOptions
