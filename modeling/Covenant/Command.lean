import Covenant.Sources

/-! The command line: what is asked for, and what is printed and written in answer. -/
namespace Covenant.Command

open Files (Access)

inductive Action where
  | generate (file output : String)
  | validate (file : String)
  | listJurisdictions
  | listTypes (jurisdiction : Option String)
  deriving DecidableEq, Repr

/-- The files that configure the compiler, and what to do with it. -/
structure Invocation where
  config : Option String
  rules : Option String
  templates : Option String
  action : Action
  deriving DecidableEq, Repr

/-- What a run prints, and the code it exits with. -/
structure Outcome where
  exit : Nat
  stdout : List String
  stderr : List String
  deriving DecidableEq, Repr

namespace Outcome

def print (lines : List String) : Outcome := ⟨0, lines, []⟩

def fail (lines : List String) : Outcome := ⟨1, [], lines⟩

/-- The failure of the compiler, one line for each problem of a definition. -/
def ofError (e : Compiler.Error) : Outcome :=
  match e.problems? with
  | some ps =>
    fail (("Validation failed with " ++ toString ps.length ++ " error(s):") ::
      ps.map fun p => "  " ++ p.message)
  | none => fail ["Error: " ++ e.message]

end Outcome

/-! ### Arguments -/

/-- The options of a command line, the last of several values winning. -/
structure Options where
  config : Option String := none
  rules : Option String := none
  templates : Option String := none
  file : Option String := none
  output : Option String := none
  jurisdiction : Option String := none
  command : Option String := none

namespace Options

/-- Gives an option, by its letter or name, a value. -/
def set (o : Options) (key value : String) : Option Options :=
  match key with
  | "c" | "config" => some { o with config := some value }
  | "r" | "rules" => some { o with rules := some value }
  | "t" | "templates" => some { o with templates := some value }
  | "f" | "file" => some { o with file := some value }
  | "o" | "output" => some { o with output := some value }
  | "j" | "jurisdiction" => some { o with jurisdiction := some value }
  | _ => none

/-- The key of an argument and the value in the same argument, if it is an option. -/
def split (arg : String) : Option (String × Option String) :=
  match arg.toList with
  | '-' :: '-' :: cs =>
    let key := cs.takeWhile (· != '=')
    some (String.ofList key, (cs.drop key.length).tail?.map String.ofList)
  | '-' :: c :: '=' :: cs => some (c.toString, some (String.ofList cs))
  | ['-', c] => some (c.toString, none)
  | '-' :: c :: cs => some (c.toString, some (String.ofList cs))
  | _ => none

/-- Reads the arguments in order. -/
def read (o : Options) : List String → Option Options
  | [] => some o
  | arg :: rest =>
    match split arg with
    | none =>
      if o.command.isNone then { o with command := some arg }.read rest else none
    | some (key, some value) => (o.set key value).bind (·.read rest)
    | some (key, none) =>
      match rest with
      | value :: rest => (o.set key value).bind (·.read rest)
      | [] => none

end Options

/-- Where artifacts go unless told otherwise. -/
def defaultOutput : String := "generated"

def Action.ofOptions (o : Options) : Option Action :=
  match o.command, o.file with
  | some "generate", some file => some (.generate file (o.output.getD defaultOutput))
  | some "validate", some file => some (.validate file)
  | some "list-jurisdictions", _ => some .listJurisdictions
  | some "list-types", _ => some (.listTypes o.jurisdiction)
  | _, _ => none

/-- What the arguments ask for, unless they ask for nothing that is known. -/
def Invocation.ofArgs (args : List String) : Option Invocation := do
  let o ← ({} : Options).read args
  return ⟨o.config, o.rules, o.templates, ← Action.ofOptions o⟩

/-! ### Running -/

variable {m : Type → Type} [Monad m]

/-- The compiler asked for: the configuration file first, then the paths of the command
line in place of those it gives. -/
def Invocation.compiler (files : Access m) (i : Invocation) : ExceptT Compiler.Error m Compiler := do
  let c ← match i.config with
    | some path => (Config.load files path).adapt Compiler.Error.config
    | none => pure {}
  let c := i.rules.elim c c.withRules
  Compiler.ofConfig files (i.templates.elim c c.withTemplates)

/-- The texts of an artifact: what each is, the name of its file, and itself. -/
def outputs (a : Artifact) : List (String × String × String) :=
  a.bodies.toList.map (fun (role, body) => (role.name, a.fileName role, body)) ++
    [("provenance",
      a.definition.contractType ++ "_" ++ a.definition.jurisdiction ++ ".provenance.json",
      a.provenance.pretty)]

/-- Writes texts to a directory until one cannot be written. The lines say what has been
written where. -/
def writeAll (files : Access m) (directory : String) (written : List String) :
    List (String × String × String) → m (List String × Option Files.Error)
  | [] => return (written, none)
  | (what, name, text) :: rest => do
    let path := Files.Path.join directory name
    match ← files.writeText path text with
    | .ok () => writeAll files directory (written ++ [what ++ " " ++ path]) rest
    | .error e => return (written, some e)

/-- Writes an artifact to a directory, which is made if it is missing. -/
def writeArtifact (files : Access m) (directory : String) (a : Artifact) : m Outcome := do
  let (written, failure) ← match ← files.makeDirectories directory with
    | .ok () => writeAll files directory [] (outputs a)
    | .error e => pure ([], some e)
  return match failure with
    | none => .print written
    | some e => ⟨1, written, ["Error writing to '" ++ directory ++ "': " ++ e.message]⟩

/-- The line that says a definition is valid. -/
def verdict (file : String) (d : Definition) : String :=
  file ++ ": valid " ++ d.contractType ++ " contract for " ++ d.jurisdiction ++ " (" ++
    toString d.parties.length ++ " parties, " ++ toString d.conditions.length ++ " conditions)"

/-- The contract types of a jurisdiction, or of all of them. -/
def typesOf (rules : Rules.Rulebook) : Option String → Outcome
  | some jurisdiction =>
    if rules.supports jurisdiction then .print (rules.contractTypes jurisdiction)
    else .fail ["Error: unsupported jurisdiction '" ++ jurisdiction ++ "'"]
  | none => .print (rules.jurisdictions.map fun j =>
      j ++ ": " ++ ", ".intercalate (rules.contractTypes j))

def Action.run (files : Access m) (c : Compiler) : Action → m Outcome
  | .generate file output => do
    match ← c.compileFile files file with
    | .ok a => writeArtifact files output a
    | .error e => return .ofError e
  | .validate file => do
    match ← c.compileFile files file with
    | .ok a => return .print [verdict file a.definition]
    | .error e => return .ofError e
  | .listJurisdictions => return .print c.rules.jurisdictions
  | .listTypes jurisdiction => return typesOf c.rules jurisdiction

def Invocation.run (files : Access m) (i : Invocation) : m Outcome := do
  match ← i.compiler files with
  | .ok c => i.action.run files c
  | .error e => return .ofError e

end Covenant.Command
