/-!
# Access to files

The few operations on files that the command needs, and the ways in which they fail. A store of files
can be the machine's own or a value in memory.
-/
namespace Blueprint

inductive FileError where
  | missing
  | alreadyExists
  | notFolder
  | isFolder
  | nameTooLong
  /-- A character of the path cannot be in a path. -/
  | zeroCharacter
  | other (text : String)
  deriving DecidableEq

def FileError.message : FileError → String
  | missing => "No such file or directory (os error 2)"
  | alreadyExists => "File exists (os error 17)"
  | notFolder => "Not a directory (os error 20)"
  | isFolder => "Is a directory (os error 21)"
  | nameTooLong => "File name too long (os error 36)"
  | zeroCharacter => "file name contained an unexpected NUL byte"
  | other text => text

/-- A store of files, as effects in `m`. -/
class FileAccess (m : Type → Type) where
  read : String → m (Except FileError ByteArray)
  isFolder : String → m Bool
  makeFolder : String → m (Except FileError Unit)
  write : String → ByteArray → m (Except FileError Unit)

end Blueprint
