import Covenant.Artifact.Error
import Covenant.Table

/-! Fills: what is written in the slots of a template. Every slot is filled once, and
the fills fit a template when they are for exactly the slots it declares. -/
namespace Covenant.Artifact

open Template (SlotKind)

inductive Fill where
  | scalar (text : String)
  /-- Statements, each with lines of its own. -/
  | block (statements : List String)
  deriving DecidableEq, Repr

def Fill.kind : Fill → SlotKind
  | .scalar _ => .scalar
  | .block _ => .block

structure Fills where
  bySlot : Table Fill

namespace Fills

def empty : Fills := ⟨∅⟩

def get? (f : Fills) (slot : String) : Option Fill := f.bySlot.get? slot

def size (f : Fills) : Nat := f.bySlot.size

/-- Fills a slot that has no fill yet. -/
def insert (f : Fills) (slot : String) (fill : Fill) : Except Error Fills :=
  if f.bySlot.contains slot then .error (.filledTwice slot)
  else .ok ⟨f.bySlot.insert slot fill⟩

/-- Fills slots in order. -/
def insertAll (f : Fills) : List (String × Fill) → Except Error Fills
  | [] => .ok f
  | (slot, fill) :: rest =>
    match f.insert slot fill with
    | .ok f => f.insertAll rest
    | .error e => .error e

/-! ### Fitting a template -/

/-- The first declared slot that has no fill. -/
def missing? (f : Fills) (slots : Table SlotKind) : Option String :=
  slots.keys.find? fun slot => !f.bySlot.contains slot

/-- What is wrong with the fill of a slot. -/
def misfit? (slots : Table SlotKind) (slot : String) (fill : Fill) : Option Error :=
  match slots.get? slot with
  | none => some (.undeclared slot)
  | some kind => if kind = fill.kind then none else some (.kindMismatch slot kind fill.kind)

/-- Success when the slots filled are the slots declared, each with its kind. -/
def verify (f : Fills) (slots : Table SlotKind) : Except Error Unit :=
  match f.missing? slots with
  | some slot => .error (.unfilled slot)
  | none =>
    match f.bySlot.entries.findSome? fun e => misfit? slots e.1 e.2 with
    | some e => .error e
    | none => .ok ()

/-! ### Reading -/

/-- The text of a scalar slot. -/
def text (f : Fills) (slot : String) : Except Error String :=
  match f.get? slot with
  | some (.scalar t) => .ok t
  | some (.block _) => .error (.kindMismatch slot .scalar .block)
  | none => .error (.unfilled slot)

/-- The statements of a block slot. -/
def statements (f : Fills) (slot : String) : Except Error (List String) :=
  match f.get? slot with
  | some (.block ss) => .ok ss
  | some (.scalar _) => .error (.kindMismatch slot .block .scalar)
  | none => .error (.unfilled slot)

end Fills
end Covenant.Artifact
