import Covenant.Definition.Draft
import Covenant.Rules.RuleSet
import Covenant.Rules.Rulebook

/-! Compliance of a draft with the law: the requirements its rule set mandates and the
bounds its constraints set. It is checked whatever the form of the rest, as long as the
jurisdiction and the contract type are known. -/
namespace Covenant.Draft

open Rules (Bound Rulebook RuleSet)

/-- The mandated requirements that are not requested, in the order of the rules. -/
def requirementProblems (r : RuleSet) (requested : List String) : List Problem :=
  (r.legalRequirements.filter fun id => !requested.contains id).map fun id =>
    .missingRequirement id r.jurisdiction r.contractType

/-- What a constraint says of the parameters of one condition. -/
def boundProblem? (constraint : String) (limit : Double) (bound : Bound)
    (bag : Nat × Table ParamValue) : Option Problem :=
  let field := indexed conditionsPath bag.1 ++ ".parameters." ++ bound.parameter
  match bag.2.get? bound.parameter with
  | none => none
  | some value => match value.asDouble? with
    | some number =>
      if bound.admits number limit then none else some (.violation constraint field number limit)
    | none =>
      some (.schema field ("expected a number, bounded by constraint '" ++ constraint ++ "'"))

def constraintProblems (r : RuleSet) (parameters : List (Nat × Table ParamValue)) : List Problem :=
  r.constraints.entries.flatMap fun e =>
    match Bound.ofConstraint? e.1 with
    | some bound => parameters.filterMap (boundProblem? e.1 e.2 bound)
    | none => []

/-- Every problem that a draft has with the rules. -/
def complianceProblems (rules : Rulebook) (d : Draft) : List Problem :=
  match d.jurisdiction, d.contractType with
  | some jurisdiction, some contractType =>
    if !rules.supports jurisdiction then [.unsupportedJurisdiction jurisdiction]
    else match rules.lookup jurisdiction contractType with
      | none => [.unsupportedType jurisdiction contractType]
      | some r => requirementProblems r d.legalRequirements ++ constraintProblems r d.parameters
  | _, _ => []

end Covenant.Draft
