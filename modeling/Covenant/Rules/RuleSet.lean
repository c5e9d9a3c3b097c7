import Covenant.Definition.Basic
import Covenant.Ident

/-! Rule sets: what the law of a jurisdiction asks of a type of contract. A rule set is
checked when it is made from the entries of a rule source, and the first entry that is
wrong is the reason it is refused. -/
namespace Covenant.Rules

/-- What a rule source can be refused for. -/
inductive Error where
  | malformed (reason : String)
  | duplicateKey (jurisdiction contractType : String)
  | unreadable (path reason : String)
  deriving DecidableEq, Repr

def Error.message : Error → String
  | .malformed r => "malformed rule source: " ++ r
  | .duplicateKey j t => "duplicate rule key (" ++ j ++ ", " ++ t ++ ")"
  | .unreadable p r => "error reading rule source " ++ p ++ ": " ++ r

structure RuleSet where
  jurisdiction : String
  contractType : String
  legalRequirements : List String
  mandatoryClauses : List String
  /-- Named time limits in days. -/
  timeLimits : Table Nat
  constraints : Table Double
  deriving DecidableEq

/-- A rule set as a source gives it, entries in their order. -/
structure RuleDraft where
  legalRequirements : List String
  mandatoryClauses : List String
  timeLimits : List (String × Nat)
  constraints : List (String × Double)

namespace RuleSet

def timeLimit? (r : RuleSet) (name : String) : Option Nat := r.timeLimits.get? name

def constraint? (r : RuleSet) (name : String) : Option Double := r.constraints.get? name

def requires (r : RuleSet) (requirement : String) : Bool := r.legalRequirements.contains requirement

def toJson (r : RuleSet) : Json :=
  .obj [("jurisdiction", .str r.jurisdiction), ("contract_type", .str r.contractType),
    ("legal_requirements", .strings r.legalRequirements),
    ("mandatory_clauses", .strings r.mandatoryClauses),
    ("time_limits", .obj (r.timeLimits.map fun n => Json.int (n : Nat)).entries),
    ("constraints", .obj (r.constraints.map Json.double).entries)]

end RuleSet

/-! ### Checking -/

/-- The first problem of a list of ids: one that is no identifier, or is there twice. -/
def idProblem? (what : String) (seen : List String) : List String → Option String
  | [] => none
  | id :: rest =>
    if !Ident.isIdent id then some ("invalid " ++ what ++ " id '" ++ id ++ "'")
    else if seen.contains id then some (what ++ " '" ++ id ++ "' listed twice")
    else idProblem? what (seen ++ [id]) rest

/-- The first problem of named values: a name that is no identifier, a value that is
refused, or a name that is there twice. -/
def entryProblem? (what : String) (refuse : α → Option String) (seen : List String) :
    List (String × α) → Option String
  | [] => none
  | (name, a) :: rest =>
    if !Ident.isIdent name then some ("invalid " ++ what ++ " name '" ++ name ++ "'")
    else match refuse a with
      | some reason => some (what ++ " '" ++ name ++ "' " ++ reason)
      | none =>
        if seen.contains name then some (what ++ " '" ++ name ++ "' defined twice")
        else entryProblem? what refuse (seen ++ [name]) rest

def refuseDays (n : Nat) : Option String := if n = 0 then some "must be positive" else none

def refuseLimit (d : Double) : Option String :=
  if d.isFinite then none else some "must be a finite number"

namespace RuleDraft

/-- The first problem of a rule set. -/
def problem? (d : RuleDraft) : Option String :=
  if d.legalRequirements.isEmpty then some "legal_requirements must not be empty"
  else (idProblem? "legal requirement" [] d.legalRequirements).or <|
    (idProblem? "mandatory clause" [] d.mandatoryClauses).or <|
    (entryProblem? "time limit" refuseDays [] d.timeLimits).or <|
    entryProblem? "constraint" refuseLimit [] d.constraints

/-- The rule set of a draft. -/
def toRuleSet (jurisdiction contractType : String) (d : RuleDraft) : Except Error RuleSet :=
  match d.problem? with
  | some problem =>
    .error (.malformed ("(" ++ jurisdiction ++ ", " ++ contractType ++ "): " ++ problem))
  | none =>
    .ok ⟨jurisdiction, contractType, d.legalRequirements, d.mandatoryClauses,
      Table.ofList d.timeLimits, Table.ofList d.constraints⟩

end RuleDraft

/-! ### The bounds that constraints set on the parameters of conditions -/

/-- A bound on a parameter, which the name of a constraint states. -/
inductive Bound where
  | max (parameter : String)
  | min (parameter : String)
  deriving DecidableEq, Repr

namespace Bound

def parameter : Bound → String
  | .max p | .min p => p

/-- The bound that a constraint sets, if it sets one. -/
def ofConstraint? (name : String) : Option Bound :=
  match name.toList with
  | 'm' :: 'a' :: 'x' :: '_' :: c :: cs => some (.max (String.ofList (c :: cs)))
  | 'm' :: 'i' :: 'n' :: '_' :: c :: cs => some (.min (String.ofList (c :: cs)))
  | _ => none

/-- Bounds are inclusive. -/
def admits (b : Bound) (value limit : Double) : Bool :=
  match b with
  | .max _ => value.le limit
  | .min _ => limit.le value

end Bound
end Covenant.Rules
