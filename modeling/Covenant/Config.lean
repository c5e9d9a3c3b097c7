import Covenant.Vocabulary
import Covenant.Files.Access
import Covenant.Toml.Document

/-! Configuration: words added to the built-in vocabulary, and where to find rules and
templates that replace the built-in ones. -/
namespace Covenant

structure Config where
  triggers : List String := []
  actions : List String := []
  roles : Table RoleClass := ∅
  /-- The path of a rule source. -/
  rules : Option String := none
  /-- The path of a template directory. -/
  templates : Option String := none

namespace Config

inductive Error where
  | unreadable (reason : Files.Error)
  | malformed
  | invalidWord (e : InvalidWord)
  deriving DecidableEq, Repr

def Error.message : Error → String
  | .unreadable e => "failed to read config file: " ++ e.message
  | .malformed => "failed to parse config TOML: " ++ Toml.refusal
  | .invalidWord e => "invalid vocabulary in config: " ++ e.message

/-- Nothing is configured. -/
def isEmpty (c : Config) : Bool :=
  c.triggers.isEmpty && c.actions.isEmpty && c.roles.isEmpty && c.rules.isNone && c.templates.isNone

def withTrigger (c : Config) (word : String) : Config := { c with triggers := c.triggers ++ [word] }

def withAction (c : Config) (word : String) : Config := { c with actions := c.actions ++ [word] }

def withRole (c : Config) (word : String) (roleClass : RoleClass) : Config :=
  { c with roles := c.roles.insert word roleClass }

def withRules (c : Config) (path : String) : Config := { c with rules := some path }

def withTemplates (c : Config) (path : String) : Config := { c with templates := some path }

/-! ### Vocabulary -/

/-- The built-in vocabulary with the configured words, or the first word that is none. -/
def vocabulary? (c : Config) : Except InvalidWord Vocabulary := do
  let v ← c.triggers.foldlM Vocabulary.addTrigger Vocabulary.builtin
  let v ← c.actions.foldlM Vocabulary.addAction v
  c.roles.entries.foldlM (fun v e => v.addRole e.1 e.2) v

def vocabulary (c : Config) : Except Error Vocabulary := c.vocabulary?.mapError .invalidWord

/-! ### Reading -/

def roleClass? (v : Toml.Value) : Option RoleClass := do
  let name ← v.asName?
  [RoleClass.payer, .payee, .neutral].find? fun c => c.name = name

/-- The value of a field that may be left out. -/
def optional (read : Toml.Value → Option α) (absent : α) : Option Toml.Value → Option α
  | none => some absent
  | some v => read v

def words? (v : Toml.Value) : Option (List String × List String) := do
  let ⟨_, [triggers, actions]⟩ ← v.fields? ["triggers", "actions"] | none
  return (← optional (·.asTexts?) [] triggers, ← optional (·.asTexts?) [] actions)

def roles? (v : Toml.Value) : Option (Table RoleClass) :=
  (v.asTableOf? roleClass?).map Table.ofList

/-- The paths of the sources. Given by position, neither may be left out. -/
def sources? (v : Toml.Value) : Option (Option String × Option String) := do
  let ⟨positional, [rules, templates]⟩ ← v.fields? ["rules", "templates"] | none
  if positional && (rules.isNone || templates.isNone) then none
  let path (v : Option Toml.Value) : Option (Option String) :=
    optional (fun v => v.asText?.map some) none v
  return (← path rules, ← path templates)

def ofToml? (v : Toml.Value) : Option Config := do
  let ⟨_, [vocabulary, roles, sources]⟩ ← v.fields? ["vocabulary", "roles", "sources"] | none
  let (triggers, actions) ← optional words? ([], []) vocabulary
  let roles ← optional roles? ∅ roles
  let (rules, templates) ← optional sources? (none, none) sources
  return ⟨triggers, actions, roles, rules, templates⟩

/-- Reads a configuration. Its words have to be words. -/
def read (text : String) : Except Error Config :=
  match (Toml.read text).bind ofToml? with
  | none => .error .malformed
  | some c => c.vocabulary.map fun _ => c

/-- The configuration with its paths taken from a directory. -/
def relativeTo (directory : String) (c : Config) : Config :=
  { c with
    rules := c.rules.map (Files.Path.join directory)
    templates := c.templates.map (Files.Path.join directory) }

/-- Reads a configuration file. Its paths are relative to its directory. -/
def load [Monad m] (files : Files.Access m) (path : String) : ExceptT Error m Config := do
  let text ← (files.readText path).adapt Error.unreadable
  let c ← liftExcept (read text)
  return match Files.Path.parent? path with
    | some directory => c.relativeTo directory
    | none => c
where
  liftExcept (r : Except Error Config) : ExceptT Error m Config := ExceptT.mk (pure r)

end Config
end Covenant
