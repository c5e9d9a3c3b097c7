import Covenant.Template.Markup
import Covenant.Toml.Value

/-! What can be wrong with templates and their library. -/
namespace Covenant.Template

inductive Error where
  | notFound (contractType : String)
  | duplicate (name : String)
  | duplicateOverride (contractType jurisdiction : String)
  | unreadable (path reason : String)
  | malformedDocument (origin : String)
  | invalidName (template name : String)
  | faultyBody (template body : String) (fault : Fault)
  | undeclaredSlot (template slot : String)
  | unusedSlot (template slot : String)
  | kindMismatch (template slot : String) (declared used : SlotKind)
  | presetForBlock (template slot : String)
  | missingProvenance (template body slot : String)
  | nestedBlock (template slot : String)
  deriving DecidableEq, Repr

def Error.message : Error → String
  | .notFound t => "template not found for contract type: " ++ t
  | .duplicate n => "duplicate template definition: " ++ n
  | .duplicateOverride t j => "duplicate override for " ++ t ++ " in " ++ j
  | .unreadable p r => "error reading template file " ++ p ++ ": " ++ r
  | .malformedDocument o => "invalid template document " ++ o ++ ": " ++ Toml.refusal
  | .invalidName t n => "invalid name '" ++ n ++ "' in template " ++ t
  | .faultyBody t b f => "syntax error in template " ++ t ++ ", " ++ b ++ " body: " ++ f.text
  | .undeclaredSlot t s => "template " ++ t ++ " references undeclared slot '" ++ s ++ "'"
  | .unusedSlot t s => "template " ++ t ++ " declares slot '" ++ s ++ "' but never uses it"
  | .kindMismatch t s d u =>
    "template " ++ t ++ " uses " ++ d.text ++ " slot '" ++ s ++ "' as a " ++ u.text
  | .presetForBlock t s => "template " ++ t ++ " presets block slot '" ++ s ++ "'"
  | .missingProvenance t b s => b ++ " body of template " ++ t ++ " does not reference '" ++ s ++ "'"
  | .nestedBlock t s => "override " ++ t ++ " nests a block inside block '" ++ s ++ "'"

/-- The problem with using a slot as the given kind, if there is one. -/
def useProblem (template : String) (declared : Option SlotKind) (slot : String) (used : SlotKind) :
    Option Error :=
  match declared with
  | none => some (.undeclaredSlot template slot)
  | some kind => if kind = used then none else some (.kindMismatch template slot kind used)

/-- Success unless there is a problem; the first one counts. -/
def accept (problems : List Error) (a : α) : Except Error α :=
  match problems with
  | [] => .ok a
  | e :: _ => .error e

end Covenant.Template
