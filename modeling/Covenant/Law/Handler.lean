import Covenant.Artifact.Error
import Covenant.Ident
import Covenant.Law.Context

/-! Jurisdiction handlers. What a jurisdiction adds to the generated code is the work
of its handler, looked up by the jurisdiction's id. -/
namespace Covenant.Law

/-- Declarations of state variables, and the statements of the constructor that set them. -/
structure StateCode where
  declarations : List String := []
  initialization : List String := []
  deriving DecidableEq, Repr

structure TestCase where
  name : String
  body : List String
  deriving DecidableEq, Repr

structure Handler where
  id : String
  displayName : String
  state : Context → StateCode
  /-- Statements that return false when the law is not complied with. -/
  compliance : Context → List String
  /-- Statements run when a dispute is raised. -/
  dispute : Context → List String
  functions : Context → List String := fun _ => []
  tests : Context → List TestCase := fun _ => []

/-- Handlers by the ids of their jurisdictions. -/
structure Handlers where
  byId : Table Handler

namespace Handlers

def empty : Handlers := ⟨∅⟩

/-- Adds a handler under its normalized id. -/
def register (hs : Handlers) (h : Handler) : Except Artifact.Error Handlers :=
  let id := Ident.normalize h.id
  if !Ident.isIdent id then .error (.invalidHandlerId h.id)
  else if hs.byId.contains id then .error (.duplicateHandler id)
  else .ok ⟨hs.byId.insert id h⟩

def get? (hs : Handlers) (jurisdiction : String) : Option Handler := hs.byId.get? jurisdiction

/-- The ids, sorted. -/
def ids (hs : Handlers) : List String := hs.byId.keys

end Handlers
end Covenant.Law
