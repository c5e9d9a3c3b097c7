import Covenant.Proofs.Definition.Form

/-! What is reported of a contract, valid or not: the problems of each field, said of that
field alone, in the order of the fields, and then what the law has against whatever could be
recovered. An entry of a list is held against the entries before it only to tell whether it
repeats one of them, and it does so whether or not those are in order themselves. -/
namespace Covenant

open Yaml (Value)
open Rules (Rulebook RuleSet)

/-- What is reported of something: a property of lists of problems. -/
abbrev Report := List Problem → Prop

namespace Report

open Definition
open Draft (partiesPath conditionsPath requirementsPath metadataPath indexed)

variable {α : Type}

/-! ### Reports in a row -/

def Exactly (ps : List Problem) : Report := (· = ps)

/-- The reports on items in a row, one after the other. -/
def Each (on : α → Report) (as : List α) : Report := fun ps =>
  ∃ pss, List.Forall₂ on as pss ∧ ps = pss.flatten

def InTurn (rs : List Report) : Report := Each id rs

/-! ### Fields -/

/-- A field that must be there. -/
def Required (v : Value) (path key : String) (given : Value → Report) : Report :=
  v.FieldOr key [.missing (path ++ "." ++ key)] given

/-- A field that may be left out. -/
def Optional (v : Value) (key : String) (given : Value → Report) : Report := v.FieldOr key [] given

/-- A value that must be a text, and one that is accepted. -/
inductive OfText (field : String) (Accept : String → Prop) (refusal : String → String) :
    Value → Report
  | untyped {v : Value} (h : ∀ raw, v ≠ .text raw) :
    OfText field Accept refusal v [.schema field "expected a string"]
  | refused {raw : String} (h : ¬Accept raw) :
    OfText field Accept refusal (.text raw) [.schema field (refusal raw)]
  | fine {raw : String} (h : Accept raw) : OfText field Accept refusal (.text raw) []

/-- A value that must be a sequence. -/
inductive OfSequence (field reason : String) (given : List Value → Report) : Value → Report
  | shapeless {v : Value} (h : ∀ items, v ≠ .sequence items) :
    OfSequence field reason given v [.schema field reason]
  | items {items : List Value} {ps : List Problem} (h : given items ps) :
    OfSequence field reason given (.sequence items) ps

/-- A value that must be a mapping. -/
inductive OfMapping (field reason : String) (given : List (Value × Value) → Report) :
    Value → Report
  | shapeless {v : Value} (h : ∀ entries, v ≠ .mapping entries) :
    OfMapping field reason given v [.schema field reason]
  | entries {entries : List (Value × Value)} {ps : List Problem} (h : given entries ps) :
    OfMapping field reason given (.mapping entries) ps

def OfId (field : String) : Value → Report :=
  OfText field (fun raw => Ident.isIdent (Ident.normalize raw) = true)
    fun raw => "invalid identifier '" ++ raw ++ "'"

/-! ### Parties -/

/-- A name that no earlier entry has, valid or not. -/
inductive OfName (earlier : List Value) (field : String) : Value → Report
  | untyped {v : Value} (h : ∀ raw, v ≠ .text raw) :
    OfName earlier field v [.schema field "expected a string"]
  | blank {raw : String} (h : Text.trimmed raw = "") :
    OfName earlier field (.text raw) [.schema field "must not be empty"]
  | repeated {v u : Value} {s : String} (h : StatesWords v s) (hu : u ∈ earlier)
      (hs : u.Field "name" StatesWords s) :
    OfName earlier field v [.schema field ("duplicate party name '" ++ s ++ "'")]
  | new {v : Value} {s : String} (h : StatesWords v s)
      (hs : ∀ u ∈ earlier, ¬u.Field "name" StatesWords s) : OfName earlier field v []

inductive OfFlag (field : String) : Value → Report
  | untyped {v : Value} (h : ∀ b, v ≠ .bool b) :
    OfFlag field v [.schema field "expected a boolean"]
  | fine (b : Bool) : OfFlag field (.bool b) []

/-- An entry of the party list, after the earlier ones. -/
def OfParty (vocabulary : Vocabulary) (earlier : List Value) (path : String) : Value → Report :=
  OfMapping path "expected a mapping" fun entries => InTurn [
    Required (.mapping entries) path "name" (OfName earlier (path ++ ".name")),
    Required (.mapping entries) path "role" (OfText (path ++ ".role")
      (fun raw => (vocabulary.role? (Ident.normalize raw)).isSome = true)
      fun raw => "unregistered role '" ++ raw ++ "'"),
    Optional (.mapping entries) "address" (OfText (path ++ ".address")
      (fun raw => Address.isWellFormed (Text.trimmed raw) = true)
      fun raw => "malformed address '" ++ raw ++ "': expected 0x followed by 40 hex digits"),
    Optional (.mapping entries) "verification_required" (OfFlag (path ++ ".verification_required"))]

/-- An entry from which a party can be made: its name is new and its role is known, whatever
else is wrong with it. -/
structure Makes (vocabulary : Vocabulary) (earlier : List Value) (v : Value) (r : PartyRole) :
    Prop where
  name : ∃ s, v.Field "name" StatesWords s ∧ ∀ u ∈ earlier, ¬u.Field "name" StatesWords s
  role : v.Field "role" (StatesRole vocabulary) r

def lacking (c : RoleClass) (roles : List PartyRole) (reason : String) : List Problem :=
  if c ∈ roles.map (·.roleClass) then [] else [.schema partiesPath reason]

/-- The sides of the payment flow that no party is on. They are known once every entry makes a
party, if there are any entries. -/
inductive OfCoverage (vocabulary : Vocabulary) (items : List Value) : Report
  | unknown (h : items = [] ∨ ∃ e ∈ items.zipIdx, ∀ r, ¬Makes vocabulary (items.take e.2) e.1 r) :
    OfCoverage vocabulary items []
  | known {roles : List PartyRole} (hne : items ≠ [])
      (h : List.Forall₂ (fun e r => Makes vocabulary (items.take e.2) e.1 r) items.zipIdx roles) :
    OfCoverage vocabulary items
      (lacking .payer roles "at least one payer-equivalent party is required" ++
        lacking .payee roles "at least one payee-equivalent party is required")

def OfParties (vocabulary : Vocabulary) : Value → Report :=
  OfSequence partiesPath "expected a list of parties" fun items => InTurn [
    Exactly (if items.length < 2 then
      [.schema partiesPath
        ("at least two parties are required, found " ++ toString items.length)] else []),
    Each (fun e => OfParty vocabulary (items.take e.2) (indexed partiesPath e.2) e.1) items.zipIdx,
    OfCoverage vocabulary items]

/-! ### Conditions -/

def OfVerb (accept : String → Bool) (path kind : String) : Value → Report :=
  OfText (path ++ "." ++ kind) (fun raw => accept (Ident.normalize raw) = true)
    fun raw => "unknown " ++ kind ++ " verb '" ++ raw ++ "'"

/-- A number of days. -/
inductive OfDays (field : String) : Value → Report
  | untyped {v : Value} (h : ∀ n, v ≠ .number (.int n)) :
    OfDays field v [.schema field "expected a positive integer number of days"]
  | refused {n : Int} (h : n ≤ 0) : OfDays field (.number (.int n))
    [.schema field ("time_limit must be a positive number of days, found " ++ toString n)]
  | fine {n : Int} (h : 0 < n) : OfDays field (.number (.int n)) []

/-- An entry of a parameter mapping. -/
inductive OfParam (field : String) : Value × Value → Report
  | unnamed {k w : Value} (h : ∀ name, k ≠ .text name) :
    OfParam field (k, w) [.schema field "parameter names must be strings"]
  | compound {name : String} {w : Value} (h : ∀ p, ¬StatesParam w p) :
    OfParam field (.text name, w) [.schema (field ++ "." ++ name) "expected a scalar value"]
  | fine {name : String} {w : Value} {p : ParamValue} (h : StatesParam w p) :
    OfParam field (.text name, w) []

def OfParams (field : String) : Value → Report :=
  OfMapping field "expected a mapping of names to scalar values" (Each (OfParam field))

def OfCondition (vocabulary : Vocabulary) (path : String) : Value → Report :=
  OfMapping path "expected a mapping" fun entries => InTurn [
    Required (.mapping entries) path "trigger" (OfVerb vocabulary.isTrigger path "trigger"),
    Required (.mapping entries) path "action" (OfVerb vocabulary.isAction path "action"),
    Optional (.mapping entries) "time_limit" (OfDays (path ++ ".time_limit")),
    Optional (.mapping entries) "parameters" (OfParams (path ++ ".parameters"))]

def OfConditions (vocabulary : Vocabulary) : Value → Report :=
  OfSequence conditionsPath "expected a list of conditions" fun items => InTurn [
    Exactly (if items = [] then
      [.schema conditionsPath "at least one condition is required"] else []),
    Each (fun e => OfCondition vocabulary (indexed conditionsPath e.2) e.1) items.zipIdx]

/-! ### Requirements and metadata -/

/-- A requirement that no earlier entry states. -/
inductive OfRequirement (earlier : List Value) (field : String) : Value → Report
  | untyped {v : Value} (h : ∀ raw, v ≠ .text raw) :
    OfRequirement earlier field v [.schema field "expected a string"]
  | refused {raw : String} (h : Ident.isIdent (Text.trimmed raw) = false) :
    OfRequirement earlier field (.text raw) [.schema field ("invalid legal requirement id '" ++
      raw ++ "': expected a lower-case identifier")]
  | repeated {v u : Value} {id : String} (h : StatesRequirement v id) (hu : u ∈ earlier)
      (hid : StatesRequirement u id) :
    OfRequirement earlier field v [.schema field ("duplicate legal requirement '" ++ id ++ "'")]
  | new {v : Value} {id : String} (h : StatesRequirement v id)
      (hid : ∀ u ∈ earlier, ¬StatesRequirement u id) : OfRequirement earlier field v []

def OfRequirements : Value → Report :=
  OfSequence requirementsPath "expected a list of legal requirement ids" fun items =>
    Each (fun e => OfRequirement (items.take e.2) (indexed requirementsPath e.2) e.1) items.zipIdx

def OfMetadata : Value → Report :=
  OfMapping metadataPath "expected a mapping" fun entries => InTurn [
    Optional (.mapping entries) "version" (OfText (metadataPath ++ ".version")
      (fun raw => Text.trimmed raw ≠ "") fun _ => "must not be empty"),
    Optional (.mapping entries) "description" (OfText (metadataPath ++ ".description")
      (fun _ => True) id)]

/-! ### The law -/

/-- The entries of a list; there are none if the field is left out or is no list. -/
def Lists (v : Value) (key : String) (items : List Value) : Prop :=
  v.Gives key (.sequence items) ∨ (items = [] ∧ ∀ us, ¬v.Gives key (.sequence us))

/-- Some entry of the requirement list states the requirement. -/
def Requests (v : Value) (id : String) : Prop :=
  ∃ items, v.Gives "legal_requirements" (.sequence items) ∧ ∃ u ∈ items, StatesRequirement u id

/-- A condition gives a parameter a value, whatever else is wrong with the condition. -/
def Sets (v : Value) (parameter : String) (value : ParamValue) : Prop :=
  ∃ entries, v.Gives "parameters" (.mapping entries) ∧
    ∃ w, (.text parameter, w) ∈ entries ∧ StatesParam w value

/-- The constraint bounds the parameter. -/
def Bounds (constraint parameter : String) : Prop :=
  parameter ≠ "" ∧ (constraint = "max_" ++ parameter ∨ constraint = "min_" ++ parameter)

inductive OfMandate (r : RuleSet) (v : Value) (id : String) : Report
  | requested (h : Requests v id) : OfMandate r v id []
  | missing (h : ¬Requests v id) :
    OfMandate r v id [.missingRequirement id r.jurisdiction r.contractType]

def paramField (i : Nat) (parameter : String) : String :=
  indexed conditionsPath i ++ ".parameters." ++ parameter

/-- A constraint and the condition at a place. -/
inductive OfBound (constraint : String) (limit : Double) : Value × Nat → Report
  | silent {e : Value × Nat}
      (h : ∀ parameter value, Bounds constraint parameter → ¬Sets e.1 parameter value) :
    OfBound constraint limit e []
  | within {e : Value × Nat} {parameter : String} {value : ParamValue}
      (hp : Bounds constraint parameter) (hs : Sets e.1 parameter value)
      (h : WithinBound constraint limit parameter value) : OfBound constraint limit e []
  | noNumber {e : Value × Nat} {parameter : String} {value : ParamValue}
      (hp : Bounds constraint parameter) (hs : Sets e.1 parameter value)
      (h : value.asDouble? = none) : OfBound constraint limit e
        [.schema (paramField e.2 parameter)
          ("expected a number, bounded by constraint '" ++ constraint ++ "'")]
  | outside {e : Value × Nat} {parameter : String} {value : ParamValue} {x : Double}
      (hp : Bounds constraint parameter) (hs : Sets e.1 parameter value)
      (hx : value.asDouble? = some x) (h : ¬WithinBound constraint limit parameter value) :
    OfBound constraint limit e [.violation constraint (paramField e.2 parameter) x limit]

/-- What the law has against a contract whose type and jurisdiction can be told. -/
inductive OfLaw (rules : Rulebook) (v : Value) : Report
  | unknown (h : (∀ t, ¬v.Field "type" StatesId t) ∨ ∀ j, ¬v.Field "jurisdiction" StatesId j) :
    OfLaw rules v []
  | noJurisdiction {t j : String} (ht : v.Field "type" StatesId t)
      (hj : v.Field "jurisdiction" StatesId j) (h : rules.supports j = false) :
    OfLaw rules v [.unsupportedJurisdiction j]
  | noType {t j : String} (ht : v.Field "type" StatesId t)
      (hj : v.Field "jurisdiction" StatesId j) (hs : rules.supports j = true)
      (h : rules.lookup j t = none) : OfLaw rules v [.unsupportedType j t]
  | checked {t j : String} {r : RuleSet} {items : List Value} {ps : List Problem}
      (ht : v.Field "type" StatesId t) (hj : v.Field "jurisdiction" StatesId j)
      (hr : rules.lookup j t = some r) (hitems : Lists v "conditions" items)
      (h : InTurn [Each (OfMandate r v) r.legalRequirements,
        Each (fun c => Each (OfBound c.1 c.2) items.zipIdx) r.constraints.entries] ps) :
    OfLaw rules v ps

/-! ### The whole -/

/-- What is reported of a contract. -/
def OfContract (rules : Rulebook) (vocabulary : Vocabulary) (v : Value) : Report := InTurn [
  Required v "contract" "type" (OfId "contract.type"),
  Required v "contract" "jurisdiction" (OfId "contract.jurisdiction"),
  Required v "contract" "parties" (OfParties vocabulary),
  Required v "contract" "conditions" (OfConditions vocabulary),
  Optional v "legal_requirements" OfRequirements,
  Optional v "metadata" OfMetadata,
  OfLaw rules v]

end Report
end Covenant
