import Mathlib.Data.List.Forall2
import Covenant.Definition.Reading
import Covenant.Proofs.Yaml.Sound

/-! What it is for a document to state a definition: the form of every field, said of the
document alone, without the checks that refuse it. A field that is null counts as left
out. The form fixes the definition, since it says of every part what value it has. -/
namespace Covenant

open Yaml (Value)
open Rules (Rulebook RuleSet)

namespace Yaml.Value

variable {α : Type}

/-- A value that a source can hold, without tags. -/
structure Bare (v : Value) : Prop where
  sound : v.Sound
  untagged : v.Untagged

/-- A mapping that has the field, and not as null. -/
def Gives (v : Value) (key : String) (w : Value) : Prop :=
  ∃ entries, v = .mapping entries ∧ (.text key, w) ∈ entries ∧ w ≠ .null

/-- The field is left out. -/
def Lacks (v : Value) (key : String) : Prop := ∀ w, ¬v.Gives key w

/-- The field is there, and its value states `a`. -/
def Field (v : Value) (key : String) (States : Value → α → Prop) (a : α) : Prop :=
  ∃ w, v.Gives key w ∧ States w a

/-- The field states `a`, or is left out and `a` is what stands for it then. -/
def FieldOr (v : Value) (key : String) (default : α) (States : Value → α → Prop) (a : α) : Prop :=
  (v.Lacks key ∧ a = default) ∨ v.Field key States a

end Yaml.Value

namespace Definition

/-! ### Texts -/

/-- An identifier, once normalized. -/
def StatesId (v : Value) (id : String) : Prop :=
  ∃ raw, v = .text raw ∧ id = Ident.normalize raw ∧ Ident.isIdent id = true

/-- A text that is not blank, without white space at its ends. -/
def StatesWords (v : Value) (s : String) : Prop :=
  ∃ raw, v = .text raw ∧ s = Text.trimmed raw ∧ s ≠ ""

/-- A text that may be blank. -/
def StatesText (v : Value) (s : String) : Prop := ∃ raw, v = .text raw ∧ s = Text.trimmed raw

/-! ### Parties -/

def StatesRole (vocabulary : Vocabulary) (v : Value) (r : PartyRole) : Prop :=
  ∃ raw, v = .text raw ∧ vocabulary.role? (Ident.normalize raw) = some r

def StatesAddress (v : Value) (address : Option String) : Prop :=
  ∃ raw, v = .text raw ∧ address = some (Text.trimmed raw) ∧
    Address.isWellFormed (Text.trimmed raw) = true

/-- An entry of the party list. -/
structure StatesParty (vocabulary : Vocabulary) (v : Value) (p : Party) : Prop where
  name : v.Field "name" StatesWords p.name
  role : v.Field "role" (StatesRole vocabulary) p.role
  address : v.FieldOr "address" none StatesAddress p.address
  verification : v.FieldOr "verification_required" true (fun w b => w = .bool b)
    p.verificationRequired

/-- The party list: two at least, under names of their own, on both sides of the payment
flow. -/
def StatesParties (vocabulary : Vocabulary) (v : Value) (ps : List Party) : Prop :=
  ∃ items, v = .sequence items ∧ 2 ≤ items.length ∧
    List.Forall₂ (StatesParty vocabulary) items ps ∧ (ps.map (·.name)).Nodup ∧
    (∃ p ∈ ps, p.role.roleClass = .payer) ∧ ∃ p ∈ ps, p.role.roleClass = .payee

/-! ### Conditions -/

/-- A word, once normalized, that the vocabulary accepts. -/
def StatesVerb (accept : String → Bool) (v : Value) (w : String) : Prop :=
  ∃ raw, v = .text raw ∧ w = Ident.normalize raw ∧ accept w = true

/-- A positive number of days that a word of 64 bits holds. -/
def StatesDays (v : Value) (days : Option Nat) : Prop :=
  ∃ n : Nat, v = .number (.int n) ∧ 0 < n ∧ n < Word.count 64 ∧ days = some n

/-- A parameter value. An integer beyond the words of 64 bits with a sign is kept as the
nearest double precision number. -/
inductive StatesParam : Value → ParamValue → Prop
  | bool (b : Bool) : StatesParam (.bool b) (.bool b)
  | int {n : Int} (h : n < Word.count 63) : StatesParam (.number (.int n)) (.int n)
  | wide {n : Int} (h : (Word.count 63 : Int) ≤ n) :
      StatesParam (.number (.int n)) (.double (Double.ofInt n))
  | double (d : Double) : StatesParam (.number (.double d)) (.double d)
  | text (s : String) : StatesParam (.text s) (.text s)

/-- A mapping from texts to parameter values, and the table with just these entries. -/
def StatesParams (v : Value) (t : Table ParamValue) : Prop :=
  ∃ entries, v = .mapping entries ∧
    (∀ e ∈ entries, ∃ name p, e.1 = .text name ∧ StatesParam e.2 p) ∧
    ∀ name p, t.get? name = some p ↔ ∃ w, (.text name, w) ∈ entries ∧ StatesParam w p

/-- An entry of the condition list. -/
structure StatesCondition (vocabulary : Vocabulary) (v : Value) (c : Condition) : Prop where
  trigger : v.Field "trigger" (StatesVerb vocabulary.isTrigger) c.trigger
  action : v.Field "action" (StatesVerb vocabulary.isAction) c.action
  timeLimit : v.FieldOr "time_limit" none StatesDays c.timeLimit
  parameters : v.FieldOr "parameters" ∅ StatesParams c.parameters

/-- The condition list, which is not empty. -/
def StatesConditions (vocabulary : Vocabulary) (v : Value) (cs : List Condition) : Prop :=
  ∃ items, v = .sequence items ∧ items ≠ [] ∧
    List.Forall₂ (StatesCondition vocabulary) items cs

/-! ### Requirements and metadata -/

def StatesRequirement (v : Value) (id : String) : Prop :=
  ∃ raw, v = .text raw ∧ id = Text.trimmed raw ∧ Ident.isIdent id = true

/-- The list of legal requirements, none of them twice. -/
def StatesRequirements (v : Value) (ids : List String) : Prop :=
  ∃ items, v = .sequence items ∧ List.Forall₂ StatesRequirement items ids ∧ ids.Nodup

structure StatesMetadata (v : Value) (m : Metadata) : Prop where
  mapping : ∃ entries, v = .mapping entries
  version : v.FieldOr "version" "1.0.0" StatesWords m.version
  description : v.FieldOr "description" "" StatesText m.description

/-! ### The law -/

/-- The value is a number that a constraint of the given name and limit admits for the
parameter: `max_p` bounds `p` from above and `min_p` from below, the limit included. -/
def WithinBound (constraint : String) (limit : Double) (parameter : String)
    (value : ParamValue) : Prop :=
  parameter ≠ "" →
    (constraint = "max_" ++ parameter → ∃ x, value.asDouble? = some x ∧ x.le limit = true) ∧
    (constraint = "min_" ++ parameter → ∃ x, value.asDouble? = some x ∧ limit.le x = true)

/-- A definition that requests what the rule set mandates and keeps within its bounds. -/
structure Complies (r : RuleSet) (d : Definition) : Prop where
  requirements : ∀ id ∈ r.legalRequirements, id ∈ d.legalRequirements
  bounds : ∀ constraint limit, r.constraint? constraint = some limit →
    ∀ c ∈ d.conditions, ∀ parameter value, c.parameters.get? parameter = some value →
      WithinBound constraint limit parameter value

/-! ### The whole -/

/-- The contract of a document. -/
structure StatesContract (vocabulary : Vocabulary) (v : Value) (d : Definition) : Prop where
  contractType : v.Field "type" StatesId d.contractType
  jurisdiction : v.Field "jurisdiction" StatesId d.jurisdiction
  parties : v.Field "parties" (StatesParties vocabulary) d.parties
  conditions : v.Field "conditions" (StatesConditions vocabulary) d.conditions
  legalRequirements : v.FieldOr "legal_requirements" [] StatesRequirements d.legalRequirements
  metadata : v.FieldOr "metadata" {} StatesMetadata d.metadata

/-- A document whose contract states the definition, under a rule set that the definition
complies with. -/
structure StatedBy (rules : Rulebook) (vocabulary : Vocabulary) (d : Definition) (v : Value) :
    Prop where
  contract : v.Field "contract" (StatesContract vocabulary) d
  law : ∃ r, rules.lookup d.jurisdiction d.contractType = some r ∧ Complies r d

end Definition
end Covenant
