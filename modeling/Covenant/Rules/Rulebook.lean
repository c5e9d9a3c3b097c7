import Covenant.Rules.Source

/-! The rulebook: rule sets by jurisdiction and contract type. Several sources make
one rulebook as long as no pair comes twice. -/
namespace Covenant.Rules

structure Rulebook where
  rules : Table (Table RuleSet)
  deriving DecidableEq

/-- The id of a jurisdiction or contract type as a source writes it. -/
def checkId (what raw : String) : Except Error String :=
  let id := Ident.normalize raw
  if Ident.isIdent id then .ok id
  else .error (.malformed ("invalid " ++ what ++ " '" ++ raw ++ "'"))

namespace Rulebook

def empty : Rulebook := ⟨∅⟩

/-- The rule sets of a jurisdiction. -/
def typesOf (r : Rulebook) (jurisdiction : String) : Table RuleSet :=
  (r.rules.get? jurisdiction).getD ∅

/-- Adds a rule set whose pair is not there yet. -/
def add (r : Rulebook) (s : RuleSet) : Except Error Rulebook :=
  let types := r.typesOf s.jurisdiction
  if types.contains s.contractType then .error (.duplicateKey s.jurisdiction s.contractType)
  else .ok ⟨r.rules.insert s.jurisdiction (types.insert s.contractType s)⟩

/-- Adds the rule sets of a jurisdiction in order. -/
def addTypes (jurisdiction : String) (r : Rulebook) :
    List (String × RuleDraft) → Except Error Rulebook
  | [] => .ok r
  | (raw, draft) :: rest => do
    let contractType ← checkId "contract type id" raw
    let s ← draft.toRuleSet jurisdiction contractType
    addTypes jurisdiction (← r.add s) rest

/-- Adds the rule sets of a source in order. -/
def addSource (r : Rulebook) : Source → Except Error Rulebook
  | [] => .ok r
  | (raw, types) :: rest => do
    let jurisdiction ← checkId "jurisdiction id" raw
    addSource (← r.addTypes jurisdiction types) rest

def addText (r : Rulebook) (text : String) : Except Error Rulebook :=
  match Source.read text with
  | some s => r.addSource s
  | none => .error (.malformed Yaml.refusal)

/-- The rulebook of several sources. -/
def load (texts : List String) : Except Error Rulebook := texts.foldlM addText empty

/-- The rule set for a jurisdiction and a contract type. -/
def lookup (r : Rulebook) (jurisdiction contractType : String) : Option RuleSet :=
  (r.typesOf (Ident.normalize jurisdiction)).get? (Ident.normalize contractType)

def supports (r : Rulebook) (jurisdiction : String) : Bool :=
  r.rules.contains (Ident.normalize jurisdiction)

/-- The jurisdictions, sorted. -/
def jurisdictions (r : Rulebook) : List String := r.rules.keys

/-- The contract types of a jurisdiction, sorted. -/
def contractTypes (r : Rulebook) (jurisdiction : String) : List String :=
  (r.typesOf (Ident.normalize jurisdiction)).keys

/-- The number of rule sets. -/
def size (r : Rulebook) : Nat := r.rules.values.foldr (fun types n => types.size + n) 0

end Rulebook
end Covenant.Rules
