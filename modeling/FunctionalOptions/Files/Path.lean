import FunctionalOptions.Text.Split

/-!
# Paths

A path is a text whose pieces are separated by slashes. It is never put into a
normal form: joining keeps what was written, and the system that resolves a
path may create directories for pieces that a normal form would drop.

Where a path ends does not depend on how the end is written. Empty pieces and
single dots behind the last real piece are passed over when the parent or the
name of a path is asked for, and again at the end of the parent. A dot in front
of a relative path is a real piece.

## Main definitions

* `Path.join`: A path inside a directory.
* `Path.parent?`: The directory above a path.
* `Path.fileName?`, `Path.extension?`: The name at the end of a path.
-/

namespace FunctionalOptions

namespace Path

/-- The path begins at the root. -/
def isAbsolute (path : String) : Bool :=
  path.toList.head? = some '/'

/-- A path inside a directory. An absolute path stays where it is. -/
def join (directory path : String) : String :=
  if isAbsolute path then path
  else if directory.toList.isEmpty || directory.toList.getLast? = some '/' then directory ++ path
  else directory ++ "/" ++ path

/-- The pieces of a path behind the slash it may begin with, the last first. -/
def reversedPieces (path : String) : List (List Char) :=
  (Text.splitAt '/' (if isAbsolute path then path.toList.drop 1 else path.toList)).reverse

/-- The pieces without the ones at the end that mean nothing. -/
def dropTrivial (absolute : Bool) : List (List Char) → List (List Char)
  | [] => []
  | piece :: rest =>
    if piece = [] ∨ (piece = ['.'] ∧ (absolute ∨ rest ≠ [])) then dropTrivial absolute rest
    else piece :: rest

theorem dropTrivial_length (absolute : Bool) (pieces : List (List Char)) :
    (dropTrivial absolute pieces).length ≤ pieces.length := by
  induction pieces with
  | nil => exact Nat.le_refl _
  | cons piece rest ih =>
    unfold dropTrivial
    split
    · exact Nat.le_succ_of_le ih
    · exact Nat.le_refl _

/-- The path with the given pieces, the last first. -/
def ofReversedPieces (absolute : Bool) (pieces : List (List Char)) : String :=
  String.ofList ((if absolute then ['/'] else []) ++ ['/'].intercalate pieces.reverse)

/-- The pieces of the directory above the one with the given pieces. -/
def above? (absolute : Bool) (pieces : List (List Char)) : Option (List (List Char)) :=
  match dropTrivial absolute pieces with
  | [] => none
  | _ :: rest => some (dropTrivial absolute rest)

/-- Whoever goes from a directory to the one above it arrives at the top. -/
theorem above?_length {absolute : Bool} {pieces above : List (List Char)}
    (h : above? absolute pieces = some above) : above.length < pieces.length := by
  unfold above? at h
  split at h
  · simp at h
  · next piece rest hpieces =>
    simp only [Option.some.injEq] at h
    have hlen := congrArg List.length hpieces
    have hpieces := dropTrivial_length absolute pieces
    have hrest := dropTrivial_length absolute rest
    simp only [List.length_cons] at hlen
    rw [← h]
    omega

/-- The directory above a path, if there is one. The root has none above it, and
    above a single relative piece is the empty path. -/
def parent? (path : String) : Option String :=
  (above? (isAbsolute path) (reversedPieces path)).map (ofReversedPieces (isAbsolute path))

/-- The name at the end of a path, if the path ends with one. -/
def fileName? (path : String) : Option (List Char) :=
  match dropTrivial (isAbsolute path) (reversedPieces path) with
  | [] => none
  | piece :: _ => if piece = ['.'] ∨ piece = ['.', '.'] then none else some piece

/-- What stands behind the last dot of the name at the end of a path. A name
    whose only dot comes first has no extension. -/
def extension? (path : String) : Option (List Char) :=
  match fileName? path with
  | none => none
  | some name =>
    let stem := (name.reverse.dropWhile (· ≠ '.')).drop 1
    if stem.isEmpty then none else some (name.reverse.takeWhile (· ≠ '.')).reverse

end Path

end FunctionalOptions
