import Covenant.Compiler

/-! Compilers and definitions from files. -/
namespace Covenant

open Files (Access)

variable {m : Type → Type} [Monad m]

/-- An outcome that needed no file. -/
def settled (r : Except ε α) : ExceptT ε m α := ExceptT.mk (pure r)

/-- The rulebook of a rule source. -/
def Rules.Rulebook.loadFile (files : Access m) (path : String) : ExceptT Error m Rulebook := do
  let text ← (files.readText path).adapt fun e => Error.unreadable path e.message
  settled (load [text])

namespace Template.Library

/-- The documents in a directory, sorted by name, with their paths. -/
def documents (files : Access m) (directory : String) : ExceptT Error m (List String) := do
  let names ← (files.list directory).adapt fun e => Error.unreadable directory e.message
  let names := Table.ofList ((names.filter (Files.Path.hasExtension "toml")).map (·, ()))
  return names.keys.map (Files.Path.join directory)

/-- Adds the documents at some paths, each read by `add`. -/
def addFiles (files : Access m) (add : Library → String → String → Except Error Library) :
    Library → List String → ExceptT Error m Library
  | l, [] => return l
  | l, path :: rest => do
    let text ← (files.readText path).adapt fun e => Error.unreadable path e.message
    addFiles files add (← settled (add l text path)) rest

def addBase (l : Library) (text origin : String) : Except Error Library := do
  l.register (← Base.read text origin)

def addOverride (l : Library) (text origin : String) : Except Error Library := do
  l.registerOverride (← Override.read text origin)

/-- The library of a directory: base templates in `base`, and overrides in `overrides`
if there is such a directory. -/
def loadDirectory (files : Access m) (directory : String) : ExceptT Error m Library := do
  let bases ← documents files (Files.Path.join directory "base")
  let l ← addFiles files addBase empty bases
  let place := Files.Path.join directory "overrides"
  if ← ExceptT.lift (files.isDirectory place) then
    addFiles files addOverride l (← documents files place)
  else return l

end Template.Library

namespace Compiler

/-- The compiler of a configuration. What is not configured is built in. -/
def ofConfig (files : Access m) (c : Config) : ExceptT Error m Compiler := do
  let rules ← match c.rules with
    | some path => (Rules.Rulebook.loadFile files path).adapt Error.rules
    | none => pure Builtin.rules
  let templates ← match c.templates with
    | some path => (Template.Library.loadDirectory files path).adapt Error.template
    | none => pure Builtin.templates
  let vocabulary ← settled (c.vocabulary.mapError Error.config)
  return ⟨rules, templates, vocabulary, Builtin.handlers⟩

/-- The artifact for a definition in a file. -/
def compileFile (files : Access m) (c : Compiler) (path : String) : ExceptT Error m Artifact := do
  let text ← (files.readText path).adapt fun e =>
    Error.definition [.schema Definition.documentField ("cannot read " ++ path ++ ": " ++ e.message)]
  settled (c.compileText text)

end Compiler
end Covenant
