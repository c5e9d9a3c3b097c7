import Covenant.Law.Handler

/-! Regimes: the law of a jurisdiction as a list of features. A feature belongs to one
legal requirement, and its state, check, functions and tests appear in a contract
exactly when the contract is under that requirement. -/
namespace Covenant.Law

structure Feature where
  requirement : String
  declarations : List String
  /-- A comment for the check. -/
  note : Option String := none
  /-- The condition under which the law is not complied with. -/
  failure : String
  functions : List (List String)
  tests : List TestCase := []

structure Regime where
  id : String
  displayName : String
  /-- The state variable of the officer who watches over the contract. -/
  officer : String
  features : List Feature
  /-- The authority that sets the ceiling of transactions. -/
  authority : String
  /-- How disputes are escalated. -/
  escalation : String
  /-- Time limits for a dispute, the most specific one first. -/
  deadlines : List String
  functions : List (List String) := []

/-- Statements that return false on a condition. -/
def failIf (condition : String) : List String :=
  ["if (" ++ condition ++ ") \x7b", "    return false;", "\x7d"]

def commentLine (text : String) : String := "// " ++ text

def Feature.check (f : Feature) : List String :=
  (f.note.map commentLine).toList ++ failIf f.failure

/-- A function after an empty line. -/
def setApart (body : List String) : List String := "" :: body

namespace Regime

/-- The features of the requirements that hold. -/
def active (r : Regime) (ctx : Context) : List Feature :=
  r.features.filter fun f => ctx.requires f.requirement

def state (r : Regime) (ctx : Context) : StateCode where
  declarations := ("address public " ++ r.officer ++ ";") :: (r.active ctx).flatMap (·.declarations)
  initialization := [r.officer ++ " = msg.sender;"]

/-- The check of the transaction ceiling, if the rules set one. -/
def ceiling (r : Regime) (ctx : Context) : List String :=
  if ctx.hasConstant "max_amount" then
    commentLine (r.authority ++ " transaction ceiling") :: failIf "amount > MAX_AMOUNT"
  else []

def compliance (r : Regime) (ctx : Context) : List String :=
  (r.active ctx).flatMap Feature.check ++ r.ceiling ctx

/-- When a dispute raised now has to be settled. -/
def deadline (r : Regime) (ctx : Context) : String :=
  match r.deadlines.find? ctx.hasConstant with
  | some name => "block.timestamp + " ++ Ident.constantCase name ++ " * 1 days"
  | none => "block.timestamp"

def dispute (r : Regime) (ctx : Context) : List String :=
  [commentLine r.escalation, "disputeDeadline = " ++ r.deadline ctx ++ ";",
    "emit DisputeEscalated(DISPUTE_FORUM, disputeDeadline);"]

def functionLines (r : Regime) (ctx : Context) : List String :=
  (r.functions ++ (r.active ctx).flatMap (·.functions)).flatMap setApart

def handler (r : Regime) : Handler where
  id := r.id
  displayName := r.displayName
  state := r.state
  compliance := r.compliance
  dispute := r.dispute
  functions := r.functionLines
  tests := fun ctx => (r.active ctx).flatMap (·.tests)

end Regime
end Covenant.Law
