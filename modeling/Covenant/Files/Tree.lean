import Covenant.Files.Access

/-! A tree of files in memory. Paths start at its root, and nothing is outside it. -/
namespace Covenant.Files

inductive Entry where
  | file (bytes : ByteArray)
  | directory

/-- Files and directories by their names from the root, which is a directory itself. -/
structure Tree where
  entries : List (List String × Entry)

namespace Tree

def empty : Tree := ⟨[]⟩

def find? (names : List String) : List (List String × Entry) → Option Entry
  | [] => none
  | e :: es => if e.1 = names then some e.2 else find? names es

def get? (t : Tree) (names : List String) : Option Entry :=
  if names.isEmpty then some .directory else find? names t.entries

def put (t : Tree) (names : List String) (e : Entry) : Tree :=
  ⟨t.entries.filter (·.1 ≠ names) ++ [(names, e)]⟩

/-- The names in a directory. -/
def children (t : Tree) (names : List String) : List String :=
  t.entries.filterMap fun e =>
    if e.1.dropLast = names then e.1.getLast? else none

/-- Where names lead from a place in the tree. All but the last have to be there. -/
def walk (t : Tree) (place : List String) : List String → Except Error (List String)
  | [] => .ok place
  | name :: rest =>
    match t.get? place with
    | none => .error .notFound
    | some (.file _) => .error .notDirectory
    | some .directory =>
      if Path.isIdle name then t.walk place rest
      else if name = ".." then
        if place.isEmpty then .error .notFound else t.walk place.dropLast rest
      else t.walk (place ++ [name]) rest

/-- Where a path leads. -/
def locate (t : Tree) (path : String) : Except Error (List String) :=
  if path.toList.contains '\x00' then .error .invalidPath
  else if path.isEmpty || Path.isAbsolute path then .error .notFound
  else t.walk [] (Path.names path)

/-- What is at a path. -/
def entry (t : Tree) (path : String) : Except Error Entry := do
  match t.get? (← t.locate path) with
  | some e => .ok e
  | none => .error .notFound

/-! ### Reading -/

def readText (t : Tree) (path : String) : Except Error String := do
  match ← t.entry path with
  | .directory => .error .isDirectory
  | .file bytes => match String.fromUTF8? bytes with
    | some text => .ok text
    | none => .error .notText

def list (t : Tree) (path : String) : Except Error (List String) := do
  match ← t.entry path with
  | .file _ => .error .notDirectory
  | .directory => .ok (t.children (← t.locate path))

def isDirectory (t : Tree) (path : String) : Bool :=
  match t.entry path with
  | .ok .directory => true
  | _ => false

/-! ### Writing -/

/-- Makes one directory. -/
def makeDirectory (t : Tree) (path : String) : Except Error Tree := do
  let names := Path.names path
  let named := (names.reverse.dropWhile String.isEmpty).reverse
  match named.getLast? with
  | none => .error .alreadyExists
  | some last =>
    let above ← t.walk [] (named.dropLast ++ ["."])
    let place := above ++ [last]
    if last = "." || last = ".." || (t.get? place).isSome then .error .alreadyExists
    else .ok (t.put place .directory)

/-- Makes the first directory of a list of ancestors, and the others as far as they are
missing. -/
def makeAlong (t : Tree) : List String → Except Error Tree
  | [] => .error .notFound
  | path :: above =>
    if path.isEmpty then .ok t
    else match t.makeDirectory path with
      | .ok t => .ok t
      | .error .notFound => do
        let t ← t.makeAlong above
        match t.makeDirectory path with
        | .ok t => .ok t
        | .error e => if t.isDirectory path then .ok t else .error e
      | .error e => if t.isDirectory path then .ok t else .error e

def makeDirectories (t : Tree) (path : String) : Except Error Tree :=
  if path.toList.contains '\x00' then .error .invalidPath
  else if Path.isAbsolute path then .error .notFound
  else t.makeAlong (Path.ancestors path path.length)

def writeText (t : Tree) (path text : String) : Except Error Tree := do
  let place ← t.locate path
  match t.get? place with
  | some .directory => .error .isDirectory
  | _ => .ok (t.put place (.file text.toUTF8))

/-! ### Access -/

/-- An attempt that changes the tree only when it succeeds. -/
def attempt (f : Tree → Except Error (α × Tree)) : ExceptT Error (StateM Tree) α := do
  match f (← get) with
  | .ok (a, t) => set t; return a
  | .error e => throw e

/-- Access to the files of a tree. -/
def access : Access (StateM Tree) where
  readText path := attempt fun t => (t.readText path).map (·, t)
  list path := attempt fun t => (t.list path).map (·, t)
  isDirectory path := return (← get).isDirectory path
  makeDirectories path := attempt fun t => (t.makeDirectories path).map ((), ·)
  writeText path text := attempt fun t => (t.writeText path text).map ((), ·)

end Tree
end Covenant.Files
