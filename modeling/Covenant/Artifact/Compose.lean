import Covenant.Artifact.Facts
import Covenant.Artifact.Rendering

/-! Composition: from a definition, its rule set and its template to the three texts of
an artifact, complete and free of markers, or to the reason why there is none. -/
namespace Covenant

/-- The generated texts, with what they were generated from. -/
structure Artifact where
  bodies : Bodies String
  definition : Definition
  rules : Rules.RuleSet
  template : Template.Provenance

namespace Artifact

open Law (Context Handlers)
open Template (Resolved)

/-! ### Markers that are left -/

/-- Whether a slot marker starts anywhere in a text. -/
def hasMarker : List Char → Bool
  | '{' :: '{' :: _ => true
  | _ :: cs => hasMarker cs
  | [] => false

/-- The rendered body for a role. -/
def renderBody (f : Fills) (r : Resolved) (role : BodyRole) : Except Error String := do
  let text ← f.render r (r.body role)
  if hasMarker text then .error (.residualMarker role) else .ok (String.ofList text)

/-! ### Inputs that belong together -/

def pairOfDefinition (d : Definition) : Pair := ⟨d.jurisdiction, d.contractType⟩

def pairOfRules (r : Rules.RuleSet) : Pair := ⟨r.jurisdiction, r.contractType⟩

def pairOfTemplate (r : Resolved) : Pair := ⟨r.jurisdiction, r.contractType⟩

/-- The input made for another jurisdiction or contract type, if there is one. -/
def mismatch? (ctx : Context) (r : Resolved) : Option Error :=
  let wanted := pairOfDefinition ctx.definition
  if pairOfRules ctx.rules ≠ wanted then some (.mismatch "rule set" (pairOfRules ctx.rules) wanted)
  else if pairOfTemplate r ≠ wanted then some (.mismatch "template" (pairOfTemplate r) wanted)
  else none

/-! ### The artifact -/

/-- The artifact for a definition, from its rule set and its template. -/
def compose (handlers : Handlers) (d : Definition) (r : Resolved) (rules : Rules.RuleSet) :
    Except Error Artifact :=
  let ctx : Context := ⟨d, rules⟩
  match mismatch? ctx r with
  | some e => .error e
  | none =>
    match handlers.get? d.jurisdiction with
    | none => .error (.missingHandler d.jurisdiction)
    | some h => do
      let fills ← Fills.build ctx r h
      fills.verify r.slots
      let bodies ← (⟨(), (), ()⟩ : Bodies Unit).mapM fun role _ => renderBody fills r role
      return ⟨bodies, d, rules, r.provenance⟩

def fileName (a : Artifact) (role : BodyRole) : String :=
  role.fileName a.definition.contractType a.definition.jurisdiction

/-! ### Provenance -/

/-- The record of what an artifact was generated from. -/
def provenance (a : Artifact) : Json :=
  .obj [("definition", a.definition.toJson), ("rule_set", a.rules.toJson),
    ("template", .obj [("name", .str a.template.name), ("version", .str a.template.version),
      ("override_version", .ofOption .str a.template.overrideVersion)]),
    ("files", .obj (BodyRole.all.map fun role => (role.name, .str (a.fileName role))))]

end Artifact
end Covenant
