import Covenant.Artifact.Bodies
import Covenant.Template.Segment

/-! What keeps an artifact from being composed. None of it lies in the contract
definition: templates, rules and handlers do not fit together. -/
namespace Covenant.Artifact

/-- A jurisdiction and a contract type. -/
structure Pair where
  jurisdiction : String
  contractType : String
  deriving DecidableEq, Repr

def Pair.text (p : Pair) : String := p.jurisdiction ++ "/" ++ p.contractType

inductive Error where
  | unfilled (slot : String)
  | undeclared (slot : String)
  | filledTwice (slot : String)
  | kindMismatch (slot : String) (declared filled : Template.SlotKind)
  | missingHandler (jurisdiction : String)
  /-- The named input was made for another pair than the definition. -/
  | mismatch (input : String) (given wanted : Pair)
  | residualMarker (role : BodyRole)
  | duplicateHandler (id : String)
  | invalidHandlerId (id : String)
  deriving DecidableEq, Repr

def Error.message : Error → String
  | .unfilled s => "incomplete composition: slot '" ++ s ++ "' has no fill"
  | .undeclared s => "unknown slot '" ++ s ++ "': the template does not declare it"
  | .filledTwice s => "slot '" ++ s ++ "' was filled twice"
  | .kindMismatch s d f =>
    "slot '" ++ s ++ "' is declared as " ++ d.text ++ " but was filled as " ++ f.text
  | .missingHandler j => "no jurisdiction handler registered for '" ++ j ++ "'"
  | .mismatch input g w =>
    "mismatched inputs: " ++ input ++ " is for " ++ g.text ++ ", definition is " ++ w.text
  | .residualMarker r => r.name ++ " artifact still contains a slot marker"
  | .duplicateHandler id => "duplicate jurisdiction handler '" ++ id ++ "'"
  | .invalidHandlerId id =>
    "invalid jurisdiction handler id '" ++ id ++ "': expected a lower-case identifier"

end Covenant.Artifact
