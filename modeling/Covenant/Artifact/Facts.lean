import Covenant.Artifact.Fills
import Covenant.Code.Tests
import Covenant.Law.Context
import Covenant.Template.Library

/-! The fills of a composition: facts about the contract for the scalar slots, code for
the blocks, and the presets of the template for what is left. -/
namespace Covenant.Artifact

open Law (Context Handler)
open Template (Resolved)

/-! ### Scalars -/

def contractName (d : Definition) : String := Ident.pascalCase d.contractType ++ "Contract"

/-- The description the definition gives, or else one made from its type. -/
def description (d : Definition) (jurisdictionName : String) : String :=
  let given := Text.safe d.metadata.description
  if given.isEmpty then
    Ident.pascalCase d.contractType ++ " contract governed by the law of " ++ jurisdictionName
  else given

def partyName (p : Option Party) : String := (p.map fun p => Text.safe p.name).getD ""

def partyAddress (p : Option Party) : String :=
  Text.safe ((p.map Party.addressOrZero).getD Address.zero)

def scalars (ctx : Context) (r : Resolved) (h : Handler) : List (String × String) :=
  let d := ctx.definition
  let jurisdictionName := Text.safe h.displayName
  [("contract_name", contractName d),
    ("contract_type", d.contractType),
    ("jurisdiction", d.jurisdiction),
    ("definition_version", Text.safe d.metadata.version),
    ("description", description d jurisdictionName),
    ("jurisdiction_name", jurisdictionName),
    ("template_version", r.provenance.text),
    ("payer_name", partyName d.payer),
    ("payer_address", partyAddress d.payer),
    ("payee_name", partyName d.payee),
    ("payee_address", partyAddress d.payee),
    ("legal_requirements", Text.quotedList ctx.requirements),
    ("legal_requirement_count", toString ctx.requirements.length),
    ("mandatory_clauses", Text.quotedList ctx.rules.mandatoryClauses)]

/-! ### Blocks -/

def registerRequirement (id : String) : String := "legalRequirements.push(\"" ++ id ++ "\");"

def registerParty (p : Party) : String :=
  "\x7b name: \"" ++ Text.safe p.name ++ "\", role: \"" ++ Text.safe p.role.name ++
    "\", address: \"" ++ Text.safe p.addressOrZero ++ "\", verificationRequired: " ++
    (if p.verificationRequired then "true" else "false") ++ " \x7d,"

def blocks (ctx : Context) (h : Handler) : List (String × List String) :=
  let d := ctx.definition
  [("time_limit_constants", Code.timeLimitConstants ctx.rules),
    ("constraint_constants", Code.constraintConstants ctx.rules),
    ("condition_handlers", Code.conditionFunctions d.conditions),
    ("requirement_registration", ctx.requirements.map registerRequirement),
    ("party_registration", d.parties.map registerParty),
    ("test_cases", Code.testSuite (Code.contractTests ctx ++ h.tests ctx)),
    ("jurisdiction_state", (h.state ctx).declarations),
    ("jurisdiction_initialization", (h.state ctx).initialization),
    ("compliance_verification", h.compliance ctx),
    ("dispute_handling", h.dispute ctx),
    ("jurisdiction_functions", h.functions ctx)]

/-! ### All of them -/

/-- The fills made from the contract, in order. -/
def facts (ctx : Context) (r : Resolved) (h : Handler) : List (String × Fill) :=
  (scalars ctx r h).map (fun s => (s.1, .scalar s.2)) ++
    (blocks ctx h).map fun b => (b.1, .block b.2)

def presetFills (r : Resolved) : List (String × Fill) :=
  r.presets.entries.map fun e => (e.1, .scalar e.2)

/-- The fills for a template. -/
def Fills.build (ctx : Context) (r : Resolved) (h : Handler) : Except Error Fills :=
  Fills.empty.insertAll (facts ctx r h ++ presetFills r)

end Covenant.Artifact
