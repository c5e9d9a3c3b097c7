import Covenant.Json
import Covenant.Table
import Covenant.Text.Quoted

/-! Contract definitions: who the parties are, which conditions bind them, and what
law the contract asks for. -/
namespace Covenant

/-- The side of the payment flow a role sits on. -/
inductive RoleClass where
  | payer
  | payee
  | neutral
  deriving DecidableEq, Repr

def RoleClass.name : RoleClass → String
  | .payer => "payer"
  | .payee => "payee"
  | .neutral => "neutral"

/-- The role of a party. -/
structure PartyRole where
  name : String
  roleClass : RoleClass
  deriving DecidableEq, Repr

namespace Address

def isHexDigit (c : Char) : Bool :=
  ('0' ≤ c && c ≤ '9') || ('a' ≤ c && c ≤ 'f') || ('A' ≤ c && c ≤ 'F')

/-- `0x` and forty hexadecimal digits. -/
def isWellFormedList : List Char → Bool
  | '0' :: 'x' :: digits => digits.length == 40 && digits.all isHexDigit
  | _ => false

def isWellFormed (s : String) : Bool := isWellFormedList s.toList

/-- The address that stands for a party without one. -/
def zero : String := "0x0000000000000000000000000000000000000000"

end Address

structure Party where
  name : String
  role : PartyRole
  address : Option String
  verificationRequired : Bool
  deriving DecidableEq, Repr

def Party.addressOrZero (p : Party) : String := p.address.getD Address.zero

/-- A value in the parameters of a condition. Integers are those of 64 bits. -/
inductive ParamValue where
  | bool (b : Bool)
  | int (n : Int)
  | double (d : Double)
  | text (s : String)
  deriving DecidableEq, Repr

namespace ParamValue

/-- The value as a double precision number, if it is a number. -/
def asDouble? : ParamValue → Option Double
  | .int n => some (Double.ofInt n)
  | .double d => some d
  | .bool _ | .text _ => none

/-- The value in plain text; a text is quoted. -/
def display : ParamValue → String
  | .bool b => if b then "true" else "false"
  | .int n => toString n
  | .double d => d.text
  | .text s => Text.quoted s

def toJson : ParamValue → Json
  | .bool b => .bool b
  | .int n => .int n
  | .double d => .double d
  | .text s => .str s

end ParamValue

/-- What happens, what it leads to, and by which day. -/
structure Condition where
  trigger : String
  action : String
  timeLimit : Option Nat
  parameters : Table ParamValue
  deriving DecidableEq

structure Metadata where
  version : String := "1.0.0"
  description : String := ""
  deriving DecidableEq, Repr

structure Definition where
  contractType : String
  jurisdiction : String
  parties : List Party
  conditions : List Condition
  legalRequirements : List String
  metadata : Metadata
  deriving DecidableEq

namespace Definition

/-- The first party of a class. -/
def firstOf (d : Definition) (c : RoleClass) : Option Party :=
  d.parties.find? fun p => p.role.roleClass = c

def payer (d : Definition) : Option Party := d.firstOf .payer

def payee (d : Definition) : Option Party := d.firstOf .payee

def requests (d : Definition) (requirement : String) : Bool :=
  d.legalRequirements.contains requirement

end Definition

/-! ### As records -/

def Json.strings (ss : List String) : Json := .arr (ss.map .str)

def Json.ofOption (f : α → Json) : Option α → Json
  | none => .null
  | some a => f a

def Party.toJson (p : Party) : Json :=
  .obj [("name", .str p.name), ("role", .str p.role.name),
    ("address", .ofOption .str p.address), ("verification_required", .bool p.verificationRequired)]

def Condition.toJson (c : Condition) : Json :=
  .obj [("trigger", .str c.trigger), ("action", .str c.action),
    ("time_limit", .ofOption (fun n => .int (n : Nat)) c.timeLimit),
    ("parameters", .obj (c.parameters.map ParamValue.toJson).entries)]

def Metadata.toJson (m : Metadata) : Json :=
  .obj [("version", .str m.version), ("description", .str m.description)]

def Definition.toJson (d : Definition) : Json :=
  .obj [("contract_type", .str d.contractType), ("jurisdiction", .str d.jurisdiction),
    ("parties", .arr (d.parties.map Party.toJson)),
    ("conditions", .arr (d.conditions.map Condition.toJson)),
    ("legal_requirements", .strings d.legalRequirements), ("metadata", d.metadata.toJson)]

end Covenant
