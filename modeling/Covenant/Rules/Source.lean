import Covenant.Rules.RuleSet
import Covenant.Yaml.Value

/-! Rule sources. A source maps jurisdictions to contract types to rule sets. It is read
by the form it must have: where a text is wanted any scalar is taken as written, where a
number is wanted the scalar must be plain, and tags of collections do not count. -/
namespace Covenant.Rules

open Yaml (Graph Node Reading Style)

/-- The entries of a source, in order and with repetitions. -/
abbrev Source := List (String × List (String × RuleDraft))

namespace Source

/-- Any scalar, as written. -/
def readText (g : Graph) (node : Node) : Reading String := do
  match ← g.follow node with
  | .scalar _ _ text => return String.ofList text
  | _ => failure

/-- Whether a scalar is written as a number: plain, or literal with the tag for it. -/
def isNumeral (tagName : String) (tag : Option Yaml.Octets) (style : Style) : Bool :=
  style == .plain || (style == .literal && tag == some (Yaml.coreTag tagName))

/-- A natural number of 64 bits. -/
def readDays (g : Graph) (node : Node) : Reading Nat := do
  match ← g.follow node with
  | .scalar tag style text =>
    match if isNumeral "int" tag style then Yaml.Plain.unsigned? text else none with
    | some n => if n < Word.count 64 then return n else failure
    | none => failure
  | _ => failure

def readLimit (g : Graph) (node : Node) : Reading Double := do
  match ← g.follow node with
  | .scalar tag style text =>
    if isNumeral "float" tag style then Yaml.Plain.double? text else failure
  | _ => failure

def isNothing : Node → Bool
  | .scalar _ .plain [] => true
  | _ => false

/-- The nodes of a list; nothing at all is the empty list. -/
def readItems (g : Graph) (node : Node) : Reading (List Node) := do
  match ← g.follow node with
  | .sequence _ items => return items
  | node => if isNothing node then return [] else failure

/-- The entries of a mapping; nothing at all is the empty mapping. -/
def readEntries (g : Graph) (node : Node) : Reading (List (Node × Node)) := do
  match ← g.follow node with
  | .mapping _ entries => return entries
  | node => if isNothing node then return [] else failure

def readTexts (g : Graph) (node : Node) : Reading (List String) := do
  (← readItems g node).mapM (readText g)

/-- A mapping from texts. -/
def readMap (g : Graph) (read : Node → Reading α) (node : Node) : Reading (List (String × α)) := do
  (← readEntries g node).mapM fun e => return (← readText g e.1, ← read e.2)

/-- The fields of a rule set that have been met. -/
structure Fields where
  legalRequirements : Option (List String) := none
  mandatoryClauses : Option (List String) := none
  timeLimits : Option (List (String × Nat)) := none
  constraints : Option (List (String × Double)) := none

/-- Takes a field that has not been met. -/
def Fields.read (g : Graph) (f : Fields) (e : Node × Node) : Reading Fields := do
  match ← readText g e.1 with
  | "legal_requirements" =>
    if f.legalRequirements.isSome then failure
    return { f with legalRequirements := some (← readTexts g e.2) }
  | "mandatory_clauses" =>
    if f.mandatoryClauses.isSome then failure
    return { f with mandatoryClauses := some (← readTexts g e.2) }
  | "time_limits" =>
    if f.timeLimits.isSome then failure
    return { f with timeLimits := some (← readMap g (readDays g) e.2) }
  | "constraints" =>
    if f.constraints.isSome then failure
    return { f with constraints := some (← readMap g (readLimit g) e.2) }
  | _ => failure

/-- A rule set: its requirements and what else is given. -/
def readDraft (g : Graph) (node : Node) : Reading RuleDraft := do
  let f ← (← readEntries g node).foldlM (Fields.read g) {}
  match f.legalRequirements with
  | some requirements =>
    return ⟨requirements, f.mandatoryClauses.getD [], f.timeLimits.getD [], f.constraints.getD []⟩
  | none => failure

def readGraph (g : Graph) : Reading Source :=
  match g.root with
  | some node => readMap g (readMap g (readDraft g)) node
  | none => return []

/-- Reads the text of a source. -/
def read (text : String) : Option Source := do
  let g ← Graph.read text
  let (source, _) ← (readGraph g).run 0
  return source

end Source
end Covenant.Rules
