import FunctionalOptions.Command.Run

/-!
# The Command

The program on the disk of the machine it runs on. Everything that is decided
is decided elsewhere; here the file operations are handed to the system and the
outcome is printed.

## Main definitions

* `Disk`: The disk as a file system.
* `main`: The command.
-/

namespace FunctionalOptions

namespace Disk

/-- The error of a file operation as the system tells it. Some operations give
    the number of the error with its sign turned. -/
def fileError : IO.Error → FileError
  | .noFileOrDirectory .. => .notFound
  | .alreadyExists .. => .alreadyExists
  | .resourceBusy .. => .busy
  | .inappropriateType _ number _ =>
    if number = 21 ∨ number = -21 then .isADirectory else .notADirectory
  | .invalidArgument _ number _ =>
    if number = 36 ∨ number = -36 then .nameTooLong else .invalidArgument
  | error => .other (toString error)

/-- Carry out a file operation. -/
def attempt {α : Type} (action : IO α) : IO (Except FileError α) := do
  match ← action.toBaseIO with
  | .ok value => return .ok value
  | .error error => return .error (fileError error)

/-- Create a file under a random name, giving up after a number of names that
    are taken. -/
def createFile (directory text : String) : Nat → IO String
  | 0 => throw (IO.userError "no name for a temporary file")
  | tries + 1 => do
    let path := Path.join directory (".tmp" ++ toString (← IO.rand 100000 999999))
    match ← (IO.FS.Handle.mk path .writeNew).toBaseIO with
    | .error (.alreadyExists ..) => createFile directory text tries
    | .error error => throw error
    | .ok file =>
      file.putStr text
      file.flush
      return path

instance : Filesystem IO where
  Temporary := String
  currentDirectory := attempt do return (← IO.currentDir).toString
  read path := attempt (IO.FS.readBinFile path)
  isDirectory path := do return ← ((← IO.currentDir) / path).isDir
  makeDirectory path := attempt (IO.FS.createDir path)
  createTemporary directory text := attempt (createFile directory text 100)
  rename source path := attempt (IO.FS.rename source path)
  remove source := attempt (IO.FS.removeFile source)

end Disk

end FunctionalOptions

open FunctionalOptions in
/-- The command: carry out the command line and print what comes of it. -/
def main (arguments : List String) : IO UInt32 := do
  let outcome : Command.Outcome ← Command.execute arguments
  IO.print outcome.stdout
  IO.eprint outcome.stderr
  return outcome.status
