import Covenant.Command

/-! The program: the command line over the files of the system. -/
namespace Covenant.Main

open Files (Access)

/-- Why the system refused. -/
def reason : IO.Error → Files.Error
  | .noFileOrDirectory .. => .notFound
  | .alreadyExists .. => .alreadyExists
  | .inappropriateType _ 20 _ => .notDirectory
  | .inappropriateType _ 21 _ => .isDirectory
  | e => .other (toString e)

def attempt (act : IO α) : ExceptT Files.Error IO α := ExceptT.mk do
  match ← act.toBaseIO with
  | .ok a => return .ok a
  | .error e => return .error (reason e)

def readText (path : String) : ExceptT Files.Error IO String := do
  match String.fromUTF8? (← attempt (IO.FS.readBinFile path)) with
  | some text => return text
  | none => throw .notText

def list (path : String) : ExceptT Files.Error IO (List String) := attempt do
  return (← (← IO.FS.realPath path).readDir).toList.map (·.fileName)

def isDirectory (path : String) : IO Bool := do
  match ← (attempt (IO.FS.realPath path)).run with
  | .ok path => path.isDir
  | .error _ => return false

/-- The files of the system. -/
def files : Access IO where
  readText := readText
  list := list
  isDirectory := isDirectory
  makeDirectories path := attempt (IO.FS.createDirAll path)
  writeText path text := attempt (IO.FS.writeFile path text)

def usage : List String :=
  ["Compile contract definitions into jurisdiction-compliant smart contracts",
    "",
    "Usage: covenant [OPTIONS] <COMMAND>",
    "",
    "Commands:",
    "  generate -f <FILE> [-o <DIR>]       Compile a definition and write the artifacts",
    "  validate -f <FILE>                  Check a definition without generating anything",
    "  list-jurisdictions                  List jurisdictions with rules",
    "  list-types [-j <JURISDICTION>]      List supported contract types",
    "",
    "Options:",
    "  -c, --config <FILE>                 Compiler configuration (TOML format)",
    "  -r, --rules <FILE>                  Jurisdiction rule table (YAML format)",
    "  -t, --templates <DIR>               Template directory"]

def run (args : List String) : IO Command.Outcome :=
  match Command.Invocation.ofArgs args with
  | some i => i.run files
  | none => return ⟨2, [], usage⟩

end Covenant.Main

def main (args : List String) : IO UInt32 := do
  let outcome ← Covenant.Main.run args
  for line in outcome.stdout do IO.println line
  for line in outcome.stderr do IO.eprintln line
  return outcome.exit.toUInt32
