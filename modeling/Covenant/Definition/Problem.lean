import Covenant.Number.Layout

/-! What can be wrong with a contract definition. Problems come in lists, since a
definition is told all of them at once. -/
namespace Covenant

inductive Problem where
  /-- A field that does not have the form it must have. -/
  | schema (field reason : String)
  | missingRequirement (id jurisdiction contractType : String)
  | violation (constraint field : String) (value limit : Double)
  | unsupportedJurisdiction (jurisdiction : String)
  | unsupportedType (jurisdiction contractType : String)
  deriving DecidableEq, Repr

namespace Problem

def missing (field : String) : Problem := .schema field "missing required field"

/-- The field a problem points at. -/
def field? : Problem → Option String
  | .schema f _ => some f
  | .violation _ f _ _ => some f
  | _ => none

def message : Problem → String
  | .schema f r => f ++ ": " ++ r
  | .missingRequirement id j t =>
    "missing legal requirement '" ++ id ++ "' mandated for " ++ t ++ " contracts in " ++ j
  | .violation c f v l =>
    "constraint '" ++ c ++ "' violated by " ++ f ++ ": " ++ v.text ++ " is outside the bound " ++ l.text
  | .unsupportedJurisdiction j => "unsupported jurisdiction '" ++ j ++ "'"
  | .unsupportedType j t => "contract type '" ++ t ++ "' is not supported in jurisdiction '" ++ j ++ "'"

/-- All problems on one line. -/
def join (ps : List Problem) : String := "; ".intercalate (ps.map message)

end Problem

/-- A value together with the problems met on the way to it. -/
structure Checked (α : Type) where
  value : α
  problems : List Problem

namespace Checked

def ok (a : α) : Checked α := ⟨a, []⟩

def fail (field reason : String) (a : α) : Checked α := ⟨a, [.schema field reason]⟩

def missing (field : String) (a : α) : Checked α := ⟨a, [.missing field]⟩

def map (f : α → β) (c : Checked α) : Checked β := ⟨f c.value, c.problems⟩

/-- Values in order, with the problems in the same order. -/
def sequence (cs : List (Checked α)) : Checked (List α) :=
  ⟨cs.map (·.value), cs.flatMap (·.problems)⟩

/-- With more problems after those there are. -/
def also (c : Checked α) (ps : List Problem) : Checked α := ⟨c.value, c.problems ++ ps⟩

end Checked
end Covenant
