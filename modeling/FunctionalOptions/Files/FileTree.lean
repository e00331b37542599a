import FunctionalOptions.Files.Branch
import FunctionalOptions.Files.Filesystem

/-!
# File Trees

A file system held as a value. Every file and directory has a location, the
names on the way to it from the root, and the tree says what is at each. There
are no links, so a location is reached in one way only.

A path is resolved piece by piece. Every piece but the last has to lead to a
directory that exists; a piece that leads nowhere, or to a file, ends the
resolution with the error of that piece. A path that is too long is refused
before its first piece is looked at.

Operations on a tree are computations with the tree as their state, which makes
it a file system like any other.

## Main definitions

* `FileTree`: What is below the root, and the current directory.
* `FileTree.get?`: The entry at a location.
* `FileTree.resolve`: The place a path leads to.
* `OnTree`: Computations that change a file tree.

## Theorems

* `FileTree.get?_put`: Putting an entry changes its location only.
* `FileTree.get?_erase`: Taking an entry out changes its location only.
* `FileTree.resolve_eq_place`: A path leads to a place of the tree.
-/

namespace FunctionalOptions

/-- A file system: what is below the root, and the current directory. -/
structure FileTree where
  children : List (String × Branch)
  current : Location

/-- A place that a path has led to. -/
structure Place where
  /-- The names on the way from the root, the last first. -/
  names : List String
  /-- What is there and below. -/
  branch : Branch

namespace Place

/-- The names on the way from the root. -/
def location (place : Place) : Location := place.names.reverse

/-- What is there. -/
def entry (place : Place) : Option Entry := place.branch.entry

/-- The place of a name in a directory. -/
def child (place : Place) (name : String) : Place :=
  ⟨name :: place.names, place.branch.child name⟩

end Place

namespace FileTree

/-- The root with all that lies below it. The root is always a directory. -/
def root (tree : FileTree) : Branch := .node (some .directory) tree.children

/-- The entry at a location. -/
def get? (tree : FileTree) (location : Location) : Option Entry :=
  (tree.root.descend location).entry

/-- The place of a location. -/
def place (tree : FileTree) (location : Location) : Place :=
  ⟨location.reverse, tree.root.descend location⟩

/-- The tree with an entry at a location other than the root. -/
def put (tree : FileTree) (location : Location) (entry : Entry) : FileTree :=
  { tree with children := (tree.root.set location (some entry)).children }

/-- The tree without the entry at a location other than the root. -/
def erase (tree : FileTree) (location : Location) : FileTree :=
  { tree with children := (tree.root.set location none).children }

/-- The entries of a tree with their locations. -/
def entries (tree : FileTree) : List (Location × Entry) :=
  Branch.entriesBelow tree.children

/-- Below the root, a tree made of what a branch has below it is that branch. -/
theorem get?_of_root {tree : FileTree} (branch : Branch) {location : Location}
    (htree : tree.children = branch.children) (h : location ≠ []) :
    tree.get? location = (branch.descend location).entry := by
  cases location with
  | nil => exact absurd rfl h
  | cons name rest =>
    unfold get? root Branch.descend Branch.child
    rw [htree]
    rfl

/-- The root stays a directory whatever is set below it. -/
theorem get?_nil (tree : FileTree) : tree.get? [] = some .directory := rfl

/-- What a tree has at each location once an entry is put into it. -/
theorem get?_put {tree : FileTree} {location : Location} (h : location ≠ []) (entry : Entry)
    (other : Location) :
    (tree.put location entry).get? other =
      if other = location then some entry else tree.get? other := by
  by_cases hroot : other = []
  · rw [hroot, if_neg h.symm, get?_nil, get?_nil]
  · rw [get?_of_root (tree.root.set location (some entry)) rfl hroot,
      Branch.entry_descend_set]
    rfl

/-- What a tree has at each location once an entry is taken out of it. -/
theorem get?_erase {tree : FileTree} {location : Location} (h : location ≠ [])
    (other : Location) :
    (tree.erase location).get? other =
      if other = location then none else tree.get? other := by
  by_cases hroot : other = []
  · rw [hroot, if_neg h.symm, get?_nil, get?_nil]
  · rw [get?_of_root (tree.root.set location none) rfl hroot,
      Branch.entry_descend_set]
    rfl

/-- The place of a name is the place of the location that ends in it. -/
theorem child_place (tree : FileTree) (location : Location) (name : String) :
    (tree.place location).child name = tree.place (location ++ [name]) := by
  unfold place Place.child
  rw [Branch.descend_append, List.reverse_append]
  rfl

/-- The greatest number of bytes in a name. -/
def nameLimit : Nat := 255

/-- Where a piece of a path leads to. The place it starts from has to be a
    directory. -/
def follow (tree : FileTree) (place : Place) (piece : String) : Except FileError Place :=
  match place.entry with
  | none => .error .notFound
  | some (.file _) => .error .notADirectory
  | some .directory =>
    if piece = "" ∨ piece = "." then .ok place
    else if piece = ".." then .ok (tree.place place.location.dropLast)
    else if nameLimit < piece.utf8ByteSize then .error .nameTooLong
    else .ok (place.child piece)

/-- Where pieces of a path lead to, one after the other. -/
def followAll (tree : FileTree) : Place → List String → Except FileError Place
  | place, [] => .ok place
  | place, piece :: rest =>
    match tree.follow place piece with
    | .error error => .error error
    | .ok place => tree.followAll place rest

/-- Where a path starts. -/
def start (tree : FileTree) (path : String) : Place :=
  tree.place (if Path.isAbsolute path then [] else tree.current)

/-- The greatest number of bytes in a path. -/
def pathLimit : Nat := 4095

/-- The pieces of a path that can be resolved at all. -/
def piecesOf (path : String) : Except FileError (List String) :=
  if path.toList.contains '\x00' then .error .nulInName
  else if path = "" then .error .notFound
  else if pathLimit < path.utf8ByteSize then .error .nameTooLong
  else .ok ((Text.splitAt '/' path.toList).map String.ofList)

/-- The place a path leads to. There need not be anything at it. -/
def resolve (tree : FileTree) (path : String) : Except FileError Place :=
  match piecesOf path with
  | .error error => .error error
  | .ok pieces => tree.followAll (tree.start path) pieces

/-- A place of the tree is the one that its location has. -/
theorem place_location (tree : FileTree) (location : Location) :
    tree.place (tree.place location).location = tree.place location := by
  simp only [place, Place.location, List.reverse_reverse]

/-- A piece leads from a place of the tree to a place of the tree. -/
theorem follow_eq_place {tree : FileTree} {location : Location} {piece : String} {place : Place}
    (h : tree.follow (tree.place location) piece = .ok place) :
    ∃ other, place = tree.place other := by
  unfold follow at h
  split at h
  · simp at h
  · simp at h
  · split at h
    · exact ⟨location, (Except.ok.inj h).symm⟩
    · split at h
      · exact ⟨_, (Except.ok.inj h).symm⟩
      · split at h
        · simp at h
        · exact ⟨location ++ [piece], by rw [← Except.ok.inj h, child_place]⟩

/-- Pieces lead from a place of the tree to a place of the tree. -/
theorem followAll_eq_place {tree : FileTree} {location : Location} {pieces : List String}
    {place : Place} (h : tree.followAll (tree.place location) pieces = .ok place) :
    ∃ other, place = tree.place other := by
  induction pieces generalizing location with
  | nil => exact ⟨location, (Except.ok.inj h).symm⟩
  | cons piece rest ih =>
    unfold followAll at h
    split at h
    · simp at h
    · next hfollow =>
      rcases follow_eq_place hfollow with ⟨other, hother⟩
      subst hother
      exact ih h

/-- A path leads to a place of the tree. -/
theorem resolve_eq_place {tree : FileTree} {path : String} {place : Place}
    (h : tree.resolve path = .ok place) : place = tree.place place.location := by
  unfold resolve at h
  split at h
  · simp at h
  · rcases followAll_eq_place h with ⟨other, hother⟩
    subst hother
    exact (place_location tree other).symm

/-- The pieces without the empty ones at the end. -/
def dropSlashes (pieces : List String) : List String :=
  (pieces.reverse.dropWhile (· = "")).reverse

/-- The contents of a file. -/
def contents (tree : FileTree) (path : String) : Except FileError ByteArray :=
  match tree.resolve path with
  | .error error => .error error
  | .ok place =>
    match place.entry with
    | none => .error .notFound
    | some .directory => .error .isADirectory
    | some (.file bytes) => .ok bytes

/-- The path leads to a directory. -/
def leadsToDirectory (tree : FileTree) (path : String) : Bool :=
  match tree.resolve path with
  | .error _ => false
  | .ok place => place.entry = some .directory

/-- The tree with a new directory. A path that ends in slashes names the same
    directory as one without. -/
def withDirectory (tree : FileTree) (path : String) : Except FileError FileTree :=
  match piecesOf path with
  | .error error => .error error
  | .ok pieces =>
    match tree.followAll (tree.start path) (dropSlashes pieces) with
    | .error error => .error error
    | .ok place =>
      match place.entry with
      | some _ => .error .alreadyExists
      | none => .ok (tree.put place.location .directory)

/-- A name for a temporary file. -/
def temporaryName (n : Nat) : String := ".tmp00000" ++ toString n

/-- The first name for a temporary file that is not taken in a directory. One
    more name than there are in the directory is enough to find one. -/
def freshName (directory : Branch) : String :=
  temporaryName (((List.range (directory.children.length + 1)).find? fun n =>
    (directory.child (temporaryName n)).entry.isNone).getD directory.children.length)

/-- The tree with a new file in a directory, and the location of the file. A name
    for a temporary file counts for ten bytes of its path, as one with a single
    digit takes, so that no path is too long for want of a short name. -/
def withTemporary (tree : FileTree) (directory text : String) :
    Except FileError (Location × FileTree) :=
  match tree.resolve directory with
  | .error error => .error error
  | .ok place =>
    if pathLimit < (Path.join directory (temporaryName 0)).utf8ByteSize then .error .nameTooLong
    else match place.entry with
      | none => .error .notFound
      | some (.file _) => .error .notADirectory
      | some .directory =>
        let location := place.location ++ [freshName place.branch]
        .ok (location, tree.put location (.file text.toUTF8))

/-- Where a file may be moved to. The directory of the target has to exist; the
    target has to have a name of its own, and must not be a directory or be
    written like one. A NUL is left for the system to object to. -/
def target (tree : FileTree) (path : String) : Except FileError Place := do
  let pieces ← (piecesOf path).mapError fun
    | .nulInName => .invalidArgument
    | error => error
  let named := dropSlashes pieces
  let directory ← tree.followAll (tree.start path) named.dropLast
  let place ← tree.follow directory (named.getLast?.getD "")
  match named.getLast? with
  | none => throw .busy
  | some name =>
    if name = "." ∨ name = ".." then throw .busy
    else if named.length < pieces.length then throw .notADirectory
    else match place.entry with
      | some .directory => throw .isADirectory
      | _ => return place

/-- The contents of the file at a location. -/
def contentsAt (tree : FileTree) (location : Location) : Except FileError ByteArray :=
  match tree.get? location with
  | none => .error .notFound
  | some .directory => .error .isADirectory
  | some (.file bytes) => .ok bytes

/-- The tree with a file moved. -/
def withRenamed (tree : FileTree) (source : Location) (path : String) :
    Except FileError FileTree := do
  let bytes ← tree.contentsAt source
  let target ← tree.target path
  return (tree.erase source).put target.location (.file bytes)

/-- The tree without a file. -/
def withoutFile (tree : FileTree) (source : Location) : Except FileError FileTree := do
  let _ ← tree.contentsAt source
  return tree.erase source

/-- The path of the current directory. -/
def currentPath (tree : FileTree) : String :=
  "/" ++ "/".intercalate tree.current

end FileTree

/-- Computations that change a file tree. -/
abbrev OnTree := StateM FileTree

/-- Replace the tree, or leave it as it is when there is no new one. -/
def OnTree.update {α : Type} (change : FileTree → Except FileError (α × FileTree)) :
    OnTree (Except FileError α) := fun tree =>
  match change tree with
  | .ok (value, tree) => (.ok value, tree)
  | .error error => (.error error, tree)

instance : Filesystem OnTree where
  Temporary := Location
  currentDirectory := fun tree => (.ok tree.currentPath, tree)
  read path := fun tree => (tree.contents path, tree)
  isDirectory path := fun tree => (tree.leadsToDirectory path, tree)
  makeDirectory path := .update fun tree => (tree.withDirectory path).map ((), ·)
  createTemporary directory text := .update (·.withTemporary directory text)
  rename source path := .update fun tree => (tree.withRenamed source path).map ((), ·)
  remove source := .update fun tree => (tree.withoutFile source).map ((), ·)

end FunctionalOptions
