import Covenant.Files.Path

/-! Access to files. What reads and writes files is given the means to do it, so that it
runs over the files of the system and over a tree of files in memory alike. -/
namespace Covenant.Files

/-- Why a file cannot be read or written. -/
inductive Error where
  | notFound
  | alreadyExists
  | notDirectory
  | isDirectory
  | notText
  | invalidPath
  /-- Any other reason, in the words of the system. -/
  | other (reason : String)
  deriving DecidableEq, Repr

def Error.message : Error → String
  | .notFound => "No such file or directory (os error 2)"
  | .alreadyExists => "File exists (os error 17)"
  | .notDirectory => "Not a directory (os error 20)"
  | .isDirectory => "Is a directory (os error 21)"
  | .notText => "stream did not contain valid UTF-8"
  | .invalidPath => "file name contained an unexpected NUL byte"
  | .other reason => reason

structure Access (m : Type → Type) where
  readText (path : String) : ExceptT Error m String
  /-- The names in a directory, in any order. -/
  list (path : String) : ExceptT Error m (List String)
  isDirectory (path : String) : m Bool
  /-- Makes a directory and those above it that are missing. -/
  makeDirectories (path : String) : ExceptT Error m Unit
  writeText (path text : String) : ExceptT Error m Unit

end Covenant.Files
