/-!
# File Errors

Why a file operation fails. The operations of the system fail with one of a few
numbered errors; reading a text can also fail because the file holds none, and
a name with a NUL in it never reaches the system at all.

## Main definitions

* `FileError`: Why a file operation fails.
* `FileError.message`: The error in words.
-/

namespace FunctionalOptions

/-- Why a file operation fails. -/
inductive FileError where
  | notFound
  | busy
  | alreadyExists
  | notADirectory
  | isADirectory
  | invalidArgument
  | nameTooLong
  /-- The file holds no UTF-8 text. -/
  | invalidEncoding
  /-- A name with a NUL in it. -/
  | nulInName
  /-- Another error of the system, in its own words. -/
  | other (text : String)
deriving DecidableEq, Repr

namespace FileError

/-- The words for a numbered error of the system. -/
def numbered (words : String) (number : Nat) : String :=
  words ++ " (os error " ++ toString number ++ ")"

/-- The error in words. -/
def message : FileError → String
  | notFound => numbered "No such file or directory" 2
  | busy => numbered "Device or resource busy" 16
  | alreadyExists => numbered "File exists" 17
  | notADirectory => numbered "Not a directory" 20
  | isADirectory => numbered "Is a directory" 21
  | invalidArgument => numbered "Invalid argument" 22
  | nameTooLong => numbered "File name too long" 36
  | invalidEncoding => "stream did not contain valid UTF-8"
  | nulInName => "file name contained an unexpected NUL byte"
  | other text => text

end FileError

end FunctionalOptions
