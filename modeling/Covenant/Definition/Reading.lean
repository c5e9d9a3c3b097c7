import Covenant.Definition.Compliance

/-! Reading a definition: it is accepted when neither its form nor the law finds a
problem, and refused with every problem otherwise. -/
namespace Covenant

open Rules (Rulebook)

/-- The definition of a draft that has no problems. -/
def Draft.toDefinition (d : Draft) : Except (List Problem) Definition :=
  match d.contractType, d.jurisdiction with
  | some contractType, some jurisdiction =>
    .ok ⟨contractType, jurisdiction, d.parties, d.conditions, d.legalRequirements, d.metadata⟩
  | none, _ => .error [.missing "contract.type"]
  | _, none => .error [.missing "contract.jurisdiction"]

namespace Definition

/-- The definition in a document, or everything that is wrong with it. -/
def ofValue (rules : Rulebook) (vocabulary : Vocabulary) (v : Yaml.Value) :
    Except (List Problem) Definition :=
  let c := Draft.ofValue vocabulary v
  match c.value with
  | none => .error c.problems
  | some d =>
    match c.problems ++ d.complianceProblems rules with
    | [] => d.toDefinition
    | problems => .error problems

/-- The field that stands for the document as a whole. -/
def documentField : String := "<document>"

/-- Reads a definition. -/
def read (rules : Rulebook) (vocabulary : Vocabulary) (text : String) :
    Except (List Problem) Definition :=
  match Yaml.Value.read text with
  | some v => ofValue rules vocabulary v
  | none => .error [.schema documentField Yaml.refusal]

end Definition
end Covenant
