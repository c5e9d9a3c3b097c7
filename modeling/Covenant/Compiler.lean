import Covenant.Artifact.Compose
import Covenant.Builtin.Rules
import Covenant.Builtin.Templates
import Covenant.Config
import Covenant.Definition.Reading

/-! The compiler: from the text of a contract definition to its artifact, with rules,
templates, a vocabulary and jurisdiction handlers that can each be replaced. -/
namespace Covenant

structure Compiler where
  rules : Rules.Rulebook
  templates : Template.Library
  vocabulary : Vocabulary
  handlers : Law.Handlers

namespace Compiler

inductive Error where
  | definition (problems : List Problem)
  | rules (e : Rules.Error)
  | template (e : Template.Error)
  | artifact (e : Artifact.Error)
  | config (e : Config.Error)
  deriving DecidableEq, Repr

namespace Error

def message : Error → String
  | .definition ps => "validation errors: " ++ Problem.join ps
  | .rules e => "rule error: " ++ e.message
  | .template e => "template error: " ++ e.message
  | .artifact e => "composition error: " ++ e.message
  | .config e => "config error: " ++ e.message

/-- The problems of a definition. -/
def problems? : Error → Option (List Problem)
  | .definition ps => some ps
  | _ => none

/-- Whether a different definition can help. -/
def isRecoverable (e : Error) : Bool := e.problems?.isSome

end Error

def builtin : Compiler :=
  ⟨Builtin.rules, Builtin.templates, Vocabulary.builtin, Builtin.handlers⟩

/-- Reads a definition and checks it against the rules. -/
def parse (c : Compiler) (text : String) : Except (List Problem) Definition :=
  Definition.read c.rules c.vocabulary text

/-- Why there is no rule set for a definition that was read under other rules. -/
def unsupported (c : Compiler) (d : Definition) : Problem :=
  if c.rules.supports d.jurisdiction then .unsupportedType d.jurisdiction d.contractType
  else .unsupportedJurisdiction d.jurisdiction

/-- The artifact for a definition. -/
def compile (c : Compiler) (d : Definition) : Except Error Artifact :=
  match c.rules.lookup d.jurisdiction d.contractType with
  | none => .error (.definition [c.unsupported d])
  | some rules =>
    match c.templates.resolve d.contractType d.jurisdiction with
    | .error e => .error (.template e)
    | .ok template => (Artifact.compose c.handlers d template rules).mapError .artifact

/-- The artifact for the text of a definition. -/
def compileText (c : Compiler) (text : String) : Except Error Artifact :=
  match c.parse text with
  | .error ps => .error (.definition ps)
  | .ok d => c.compile d

end Compiler
end Covenant
