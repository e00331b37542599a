import FunctionalOptions.Files.FileError
import FunctionalOptions.Files.Path

/-!
# File Systems

The few operations that generating a file asks of its surroundings. What is
done with them is written once, for every kind of computation that offers them:
for programs that act on the disk, and for programs that change a file tree held
as a value, about which things can be proved.

A file is written by way of a temporary one beside it, which takes its place
only when it is complete. Whoever looks at the path sees the old file or the
new one, and a write that fails leaves at most new directories behind.

## Main definitions

* `Filesystem`: The operations.
* `Filesystem.readText`: The text of a file.
* `Filesystem.createDirectories`: Create a directory with all the directories
  above it.
* `Filesystem.writeText`: Write a file as a whole or not at all.
-/

namespace FunctionalOptions

/-- The operations that a computation offers on files. Every path is resolved
    from the current directory. -/
class Filesystem (m : Type → Type) where
  /-- What a temporary file is known by to the computation that created it. -/
  Temporary : Type
  /-- The path of the current directory. -/
  currentDirectory : m (Except FileError String)
  /-- The contents of a file. -/
  read : String → m (Except FileError ByteArray)
  /-- The path leads to a directory. -/
  isDirectory : String → m Bool
  /-- Create a directory inside one that exists. -/
  makeDirectory : String → m (Except FileError Unit)
  /-- Create a temporary file of the given contents, under a new name inside a
      directory. -/
  createTemporary : String → String → m (Except FileError Temporary)
  /-- Move a temporary file to a path, in place of any file that is there. -/
  rename : Temporary → String → m (Except FileError Unit)
  /-- Remove a temporary file. -/
  remove : Temporary → m (Except FileError Unit)

namespace Filesystem

variable {m : Type → Type} [Monad m] [Filesystem m]

/-- The text of a file. -/
def readText (path : String) : m (Except FileError String) := do
  match ← read path with
  | .error error => return .error error
  | .ok bytes =>
    match String.fromUTF8? bytes with
    | none => return .error .invalidEncoding
    | some text => return .ok text

/-- Create a directory with all the directories above it, given the pieces of
    its path. The system is asked first, and the directory above is looked at
    only when it is the one that is missing. The empty path is the current
    directory and always there. -/
def createWith (absolute : Bool) (path : String) (pieces : List (List Char)) :
    m (Except FileError Unit) := do
  if path = "" then return .ok ()
  match ← makeDirectory path with
  | .ok () => return .ok ()
  | .error .notFound =>
    match _h : Path.above? absolute pieces with
    | none => return .error (.other "failed to create whole tree")
    | some above =>
      match ← createWith absolute (Path.ofReversedPieces absolute above) above with
      | .error error => return .error error
      | .ok () =>
        match ← makeDirectory path with
        | .ok () => return .ok ()
        | .error error =>
          if ← isDirectory path then return .ok () else return .error error
  | .error error =>
    if ← isDirectory path then return .ok () else return .error error
termination_by pieces.length
decreasing_by exact Path.above?_length _h

/-- Create a directory with all the directories above it, unless they exist. -/
def createDirectories (path : String) : m (Except FileError Unit) :=
  createWith (Path.isAbsolute path) path (Path.reversedPieces path)

/-- The directory that a file is written into. -/
def directoryOf (path : String) : String :=
  match Path.parent? path with
  | none => "."
  | some parent => if parent = "" then "." else parent

/-- Write a file as a whole or not at all. -/
def writeText (path text : String) : m (Except FileError Unit) := do
  let directory := directoryOf path
  match ← createDirectories directory with
  | .error error => return .error error
  | .ok () =>
    match ← createTemporary directory text with
    | .error error => return .error error
    | .ok temporary =>
      match ← rename temporary path with
      | .ok () => return .ok ()
      | .error error =>
        let _ ← (remove temporary : m (Except FileError Unit))
        return .error error

end Filesystem

end FunctionalOptions
