import Covenant.Rules.RuleSet

/-! What generated code is made from: a definition together with the rule set of its
jurisdiction. A contract declares constants for the time limits and constraints of the rule set. -/
namespace Covenant.Law

structure Context where
  definition : Definition
  rules : Rules.RuleSet

/-- The value of a constraint as a constant of 256 bits: a whole number of 64 bits. -/
def wholeConstant (d : Double) : Option Nat := d.toNat?.filter (· < Word.count 64)

namespace Context

/-- Mandated by the rules or requested by the definition. -/
def requires (ctx : Context) (requirement : String) : Bool :=
  ctx.rules.requires requirement || ctx.definition.requests requirement

/-- Whether the generated contract has a constant for a time limit or constraint. -/
def hasConstant (ctx : Context) (name : String) : Bool :=
  (ctx.rules.timeLimit? name).isSome || ((ctx.rules.constraint? name).bind wholeConstant).isSome

/-- The legal requirements: those of the rules, then the others that are requested. -/
def requirements (ctx : Context) : List String :=
  ctx.definition.legalRequirements.foldl
    (fun list r => if list.contains r then list else list ++ [r]) ctx.rules.legalRequirements

end Context
end Covenant.Law

namespace Covenant.Code

/-- The declaration of a constant. -/
def declareConstant (name : String) (value : Nat) : String :=
  "uint256 public constant " ++ Ident.constantCase name ++ " = " ++ toString value ++ ";"

def timeLimitConstants (r : Rules.RuleSet) : List String :=
  r.timeLimits.entries.map fun e => declareConstant e.1 e.2

/-- A constraint as a constant, or as a comment when its value is no whole number of
64 bits. -/
def constraintLine (name : String) (value : Double) : String :=
  match Law.wholeConstant value with
  | some n => declareConstant name n
  | none => "// " ++ name ++ " = " ++ value.text ++ " (not representable as uint256)"

def constraintConstants (r : Rules.RuleSet) : List String :=
  r.constraints.entries.map fun e => constraintLine e.1 e.2

end Covenant.Code
