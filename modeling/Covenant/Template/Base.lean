import Covenant.Artifact.Bodies
import Covenant.Table
import Covenant.Template.Error
import Covenant.Toml.Document

/-! Base templates, one for a contract type. A base declares its slots, and it loads
only if they are exactly the slots its three bodies refer to, each with its kind, and
every body states what it was generated for. -/
namespace Covenant.Template

/-- The slots every body refers to, so that the three artifacts agree on their origin. -/
def provenanceSlots : List String := ["jurisdiction", "contract_type", "legal_requirements"]

/-- A base template. Presets are values for scalar slots. -/
structure Base where
  name : String
  version : String
  slots : Table SlotKind
  presets : Table String
  bodies : Bodies Markup

/-- A base template as its document gives it. -/
structure BaseDraft where
  name : String
  version : String
  slots : Table SlotKind
  presets : Table String
  bodies : Bodies (List Char)

namespace BaseDraft

def kind? (v : Toml.Value) : Option SlotKind :=
  match v.asName? with
  | some "scalar" => some .scalar
  | some "block" => some .block
  | _ => none

/-- The draft in a document with the tables `template`, `slots`, `scalars` (which may be
left out) and `bodies`. -/
def ofToml? (v : Toml.Value) : Option BaseDraft := do
  let ⟨_, [some header, some slots, scalars, some bodies]⟩ ←
    v.fields? ["template", "slots", "scalars", "bodies"] | none
  let ⟨_, [some name, some version]⟩ ← header.fields? ["name", "version"] | none
  let ⟨_, [some primary, some deploy, some test]⟩ ←
    bodies.fields? ["primary", "deploy", "test"] | none
  let presets ← match scalars with
    | some v => v.asTableOf? (·.asText?)
    | none => some []
  return {
    name := ← name.asText?
    version := ← version.asText?
    slots := Table.ofList (← slots.asTableOf? kind?)
    presets := Table.ofList presets
    bodies := ⟨← primary.asChars?, ← deploy.asChars?, ← test.asChars?⟩ }

end BaseDraft

namespace Base

/-- Problems of one body: its uses of slots, then the provenance slots it lacks. -/
def bodyProblems (b : Base) (role : BodyRole) (text : Markup) : List Error :=
  let uses := text.references
  uses.filterMap (fun r => useProblem b.name (b.slots.get? r.name.value) r.name.value r.kind) ++
    provenanceSlots.filterMap fun slot =>
      if uses.any fun r => r.name.value == slot then none
      else some (.missingProvenance b.name role.name slot)

def isUsed (b : Base) (slot : String) : Bool :=
  b.bodies.toList.any fun p => p.2.references.any fun r => r.name.value == slot

def presetProblem (b : Base) (slot : String) : Option Error :=
  match b.slots.get? slot with
  | none => some (.undeclaredSlot b.name slot)
  | some .block => some (.presetForBlock b.name slot)
  | some .scalar => none

/-- Every problem of a template whose bodies could be read. -/
def problems (b : Base) : List Error :=
  b.bodies.toList.flatMap (fun p => b.bodyProblems p.1 p.2) ++
    b.slots.keys.filterMap (fun s => if b.isUsed s then none else some (.unusedSlot b.name s)) ++
    b.presets.keys.filterMap b.presetProblem

/-- Reads a body of the template with the given name. -/
def readBody (name : String) (role : BodyRole) (source : List Char) : Except Error Markup :=
  match Markup.ofChars source with
  | .ok t => .ok t
  | .error f => .error (.faultyBody name role.name f)

/-- The template of a draft; `origin` names the document. -/
def ofDraft (origin : String) (d : BaseDraft) : Except Error Base := do
  let name := Ident.normalize d.name
  if !Ident.isIdent name then
    throw (.invalidName origin d.name)
  match d.slots.keys.find? fun s => !Ident.isIdent s with
  | some bad => throw (.invalidName name bad)
  | none =>
    let bodies ← d.bodies.mapM (readBody name)
    let b : Base := ⟨name, d.version, d.slots, d.presets, bodies⟩
    accept b.problems b

/-- Reads a template document. -/
def read (source origin : String) : Except Error Base :=
  match (Toml.read source).bind BaseDraft.ofToml? with
  | some d => ofDraft origin d
  | none => .error (.malformedDocument origin)

end Base
end Covenant.Template
