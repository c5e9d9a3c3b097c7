import Covenant.Text.Pieces

/-! Paths of files, as texts. A path is names between slashes; it is joined and cut
without asking whether anything is there. -/
namespace Covenant.Files.Path

def names (path : String) : List String := (Text.pieces '/' path.toList).map String.ofList

def isAbsolute (path : String) : Bool := path.toList.head? == some '/'

/-- The path of something that is named relative to a directory. -/
def join (directory path : String) : String :=
  if isAbsolute path || directory.isEmpty then path
  else if directory.toList.getLast? == some '/' then directory ++ path
  else directory ++ "/" ++ path

/-- Names that lead nowhere else. -/
def isIdle (name : String) : Bool := name.isEmpty || name == "."

def dropIdle (names : List String) : List String := (names.reverse.dropWhile isIdle).reverse

/-- The first character, when it is the root or stands for the working directory. -/
def splitHead (path : String) : String × String :=
  match path.toList with
  | '/' :: cs => ("/", String.ofList cs)
  | '.' :: '/' :: cs => (".", String.ofList ('/' :: cs))
  | ['.'] => (".", "")
  | _ => ("", path)

/-- The directory that holds what a path names, unless the path is the root or empty. -/
def parent? (path : String) : Option String :=
  let (head, body) := splitHead path
  match dropIdle (names body) with
  | [] => if head == "." then some "" else none
  | ns => some (head ++ "/".intercalate (dropIdle ns.dropLast))

/-- A path, its directory, the directory of that, and so on, as many as asked for. -/
def ancestors (path : String) : Nat → List String
  | 0 => [path]
  | n + 1 => path :: match parent? path with
    | some p => ancestors p n
    | none => []

/-- Whether the name of a file ends in a dot and the extension, after something else. -/
def hasExtension (extension name : String) : Bool :=
  let ending := '.' :: extension.toList
  ending.isSuffixOf name.toList && name.toList != ending

end Covenant.Files.Path
