import Covenant.Definition.Problem
import Covenant.Vocabulary
import Covenant.Yaml.Value

/-! Drafts: what can be recovered from the document of a definition, valid or not, with
every problem of its form. No problem hides another: each field is checked by itself. -/
namespace Covenant

/-- Whatever a document holds of a definition. The parameters of every condition are
kept by its place, also of one that was refused for its verbs. -/
structure Draft where
  contractType : Option String
  jurisdiction : Option String
  parties : List Party
  conditions : List Condition
  parameters : List (Nat × Table ParamValue)
  legalRequirements : List String
  metadata : Metadata

namespace Draft

open Yaml (Value)

/-- A field that is there and not null. -/
def present? (v : Value) (key : String) : Option Value :=
  match v.get? key with
  | none => none
  | some .null => none
  | some w => some w

def text? : Value → Option String
  | .text s => some s
  | _ => none

/-- A text field that may be left out. -/
def optionalText (v : Value) (path key : String) : Checked (Option String) :=
  match present? v key with
  | none => .ok none
  | some w => match text? w with
    | some s => .ok (some s)
    | none => .fail (path ++ "." ++ key) "expected a string" none

/-- A text field that must be there. -/
def requiredText (v : Value) (path key : String) : Checked (Option String) :=
  match present? v key with
  | none => .missing (path ++ "." ++ key) none
  | some _ => optionalText v path key

/-- A text field that must pass a test. -/
def requiredWord (v : Value) (path key : String) (accept : String → Option α)
    (refusal : String → String) : Checked (Option α) :=
  let c := requiredText v path key
  match c.value with
  | none => ⟨none, c.problems⟩
  | some raw => match accept raw with
    | some a => ⟨some a, c.problems⟩
    | none => ⟨none, c.problems ++ [.schema (path ++ "." ++ key) (refusal raw)]⟩

/-- A normalized identifier. -/
def idField (v : Value) (path key : String) : Checked (Option String) :=
  requiredWord v path key
    (fun raw =>
      let id := Ident.normalize raw
      if Ident.isIdent id then some id else none)
    (fun raw => "invalid identifier '" ++ raw ++ "'")

def indexed (path : String) (i : Nat) : String := path ++ "[" ++ toString i ++ "]"

/-! ### Parties -/

def partiesPath : String := "contract.parties"

/-- The name an entry of the party list gives, trimmed, if it is not blank. -/
def nameOf? (v : Value) : Option String :=
  match (present? v "name").bind text? with
  | some raw => if Text.allBlank raw then none else some (Text.trimmed raw)
  | none => none

/-- The name of a party, which no earlier one has. -/
def partyName (earlier : List String) (v : Value) (path : String) : Checked (Option String) :=
  let c := requiredText v path "name"
  match c.value with
  | none => c
  | some _ => match nameOf? v with
    | none => .fail (path ++ ".name") "must not be empty" none
    | some name =>
      if earlier.contains name then
        .fail (path ++ ".name") ("duplicate party name '" ++ name ++ "'") none
      else .ok (some name)

def partyRole (vocabulary : Vocabulary) (v : Value) (path : String) : Checked (Option PartyRole) :=
  requiredWord v path "role" (fun raw => vocabulary.role? (Ident.normalize raw))
    (fun raw => "unregistered role '" ++ raw ++ "'")

/-- An address as written, without white space at its ends. -/
def partyAddress (v : Value) (path : String) : Checked (Option String) :=
  let c := optionalText v path "address"
  match c.value with
  | none => c
  | some raw =>
    let address := Text.trimmed raw
    if Address.isWellFormed address then ⟨some address, c.problems⟩
    else ⟨some address, c.problems ++ [.schema (path ++ ".address")
      ("malformed address '" ++ raw ++ "': expected 0x followed by 40 hex digits")]⟩

def partyVerification (v : Value) (path : String) : Checked Bool :=
  match present? v "verification_required" with
  | none => .ok true
  | some (.bool b) => .ok b
  | some _ => .fail (path ++ ".verification_required") "expected a boolean" true

/-- One entry of the party list; `earlier` are the names before it. -/
def party (vocabulary : Vocabulary) (earlier : List String) (v : Value) (path : String) :
    Checked (Option Party) :=
  if v.isMapping then
    let name := partyName earlier v path
    let role := partyRole vocabulary v path
    let address := partyAddress v path
    let verification := partyVerification v path
    { value := do return ⟨← name.value, ← role.value, address.value, verification.value⟩
      problems := name.problems ++ role.problems ++ address.problems ++ verification.problems }
  else .fail path "expected a mapping" none

/-- The entries of the party list from place `i` on. -/
def partyEntries (vocabulary : Vocabulary) (earlier : List String) (i : Nat) :
    List Value → List (Checked (Option Party))
  | [] => []
  | v :: rest =>
    party vocabulary earlier v (indexed partiesPath i) ::
      partyEntries vocabulary
        (match nameOf? v with
          | some name => earlier ++ [name]
          | none => earlier)
        (i + 1) rest

/-- The sides of the payment flow that no party is on. -/
def coverageProblems (parties : List Party) : List Problem :=
  let lacks (c : RoleClass) := !parties.any fun p => p.role.roleClass == c
  (if lacks .payer then
    [.schema partiesPath "at least one payer-equivalent party is required"] else []) ++
  (if lacks .payee then
    [.schema partiesPath "at least one payee-equivalent party is required"] else [])

/-- The party list. Who is missing is only told once every entry is a party. -/
def partyList (vocabulary : Vocabulary) (v : Value) : Checked (List Party) :=
  match present? v "parties" with
  | none => .missing partiesPath []
  | some (.sequence entries) =>
    let size := if entries.length < 2 then
        [Problem.schema partiesPath
          ("at least two parties are required, found " ++ toString entries.length)]
      else []
    let cs := Checked.sequence (partyEntries vocabulary [] 0 entries)
    let found := cs.value.filterMap id
    let coverage := if found.length = entries.length && !entries.isEmpty then
        coverageProblems found
      else []
    ⟨found, size ++ cs.problems ++ coverage⟩
  | some _ => .fail partiesPath "expected a list of parties" []

/-! ### Conditions -/

def conditionsPath : String := "contract.conditions"

def verb (accept : String → Bool) (kind : String) (v : Value) (path : String) :
    Checked (Option String) :=
  requiredWord v path kind
    (fun raw =>
      let w := Ident.normalize raw
      if accept w then some w else none)
    (fun raw => "unknown " ++ kind ++ " verb '" ++ raw ++ "'")

/-- A number of days, at least one. -/
def timeLimit (v : Value) (path : String) : Checked (Option Nat) :=
  let field := path ++ ".time_limit"
  match present? v "time_limit" with
  | none => .ok none
  | some (.number (.int n)) =>
    if 0 < n then .ok (some n.toNat)
    else .fail field ("time_limit must be a positive number of days, found " ++ toString n) none
  | some _ => .fail field "expected a positive integer number of days" none

/-- A parameter value; an integer that is no integer of 64 bits with a sign becomes a
double precision number. -/
def paramValue? : Value → Option ParamValue
  | .bool b => some (.bool b)
  | .number n => match n.toInt? with
    | some i => some (.int i)
    | none => some (.double n.toDouble)
  | .text s => some (.text s)
  | _ => none

/-- One entry of a parameter mapping. -/
def parameter (path : String) (e : Value × Value) : Checked (Option (String × ParamValue)) :=
  match e.1.asText? with
  | none => .fail path "parameter names must be strings" none
  | some name => match paramValue? e.2 with
    | some value => .ok (some (name, value))
    | none => .fail (path ++ "." ++ name) "expected a scalar value" none

def parametersOf (v : Value) (path : String) : Checked (Table ParamValue) :=
  let path := path ++ ".parameters"
  match present? v "parameters" with
  | none => .ok ∅
  | some (.mapping entries) =>
    (Checked.sequence (entries.map (parameter path))).map fun es => Table.ofList (es.filterMap id)
  | some _ => .fail path "expected a mapping of names to scalar values" ∅

/-- One entry of the condition list: the condition, if its verbs are known, and its
parameters in any case. -/
def condition (vocabulary : Vocabulary) (v : Value) (path : String) :
    Checked (Option Condition × Table ParamValue) :=
  if v.isMapping then
    let trigger := verb vocabulary.isTrigger "trigger" v path
    let action := verb vocabulary.isAction "action" v path
    let limit := timeLimit v path
    let parameters := parametersOf v path
    { value := (do return ⟨← trigger.value, ← action.value, limit.value, parameters.value⟩,
        parameters.value)
      problems := trigger.problems ++ action.problems ++ limit.problems ++ parameters.problems }
  else .fail path "expected a mapping" (none, ∅)

/-- The conditions, and the parameters by their places. -/
def conditionList (vocabulary : Vocabulary) (v : Value) :
    Checked (List Condition × List (Nat × Table ParamValue)) :=
  match present? v "conditions" with
  | none => .missing conditionsPath ([], [])
  | some (.sequence entries) =>
    let size := if entries.isEmpty then
        [Problem.schema conditionsPath "at least one condition is required"]
      else []
    let cs := Checked.sequence <| entries.zipIdx.map fun e =>
      (condition vocabulary e.1 (indexed conditionsPath e.2)).map fun c => (c.1, (e.2, c.2))
    { value := (cs.value.filterMap (·.1), (cs.value.map (·.2)).filter fun p => !p.2.isEmpty)
      problems := size ++ cs.problems }
  | some _ => .fail conditionsPath "expected a list of conditions" ([], [])

/-! ### Legal requirements and metadata -/

def requirementsPath : String := "contract.legal_requirements"

/-- The entries of the requirement list from place `i` on, `found` being those before. -/
def requirementEntries (found : List String) (i : Nat) : List Value → Checked (List String)
  | [] => .ok found
  | v :: rest =>
    let field := indexed requirementsPath i
    let (found, problems) : List String × List Problem := match v.asText? with
      | none => (found, [.schema field "expected a string"])
      | some raw =>
        let id := Text.trimmed raw
        if !Ident.isIdent id then
          (found, [.schema field ("invalid legal requirement id '" ++ raw ++
            "': expected a lower-case identifier")])
        else if found.contains id then
          (found, [.schema field ("duplicate legal requirement '" ++ id ++ "'")])
        else (found ++ [id], [])
    let cs := requirementEntries found (i + 1) rest
    ⟨cs.value, problems ++ cs.problems⟩

def requirementList (v : Value) : Checked (List String) :=
  match present? v "legal_requirements" with
  | none => .ok []
  | some (.sequence entries) => requirementEntries [] 0 entries
  | some _ => .fail requirementsPath "expected a list of legal requirement ids" []

def metadataPath : String := "contract.metadata"

def metadataOf (v : Value) : Checked Metadata :=
  match present? v "metadata" with
  | none => .ok {}
  | some (.mapping entries) =>
    let m := Value.mapping entries
    let version := optionalText m metadataPath "version"
    let description := optionalText m metadataPath "description"
    let text := description.value.elim "" Text.trimmed
    let blank := version.value.any Text.allBlank
    { value := match version.value with
        | some s => if blank then { description := text } else ⟨Text.trimmed s, text⟩
        | none => { description := text }
      problems := version.problems ++
        (if blank then [.schema (metadataPath ++ ".version") "must not be empty"] else []) ++
        description.problems }
  | some _ => .fail metadataPath "expected a mapping" {}

/-! ### The whole -/

/-- The draft in the contract of a document. -/
def ofContract (vocabulary : Vocabulary) (v : Value) : Checked Draft :=
  let contractType := idField v "contract" "type"
  let jurisdiction := idField v "contract" "jurisdiction"
  let parties := partyList vocabulary v
  let conditions := conditionList vocabulary v
  let requirements := requirementList v
  let metadata := metadataOf v
  { value := ⟨contractType.value, jurisdiction.value, parties.value, conditions.value.1,
      conditions.value.2, requirements.value, metadata.value⟩
    problems := contractType.problems ++ jurisdiction.problems ++ parties.problems ++
      conditions.problems ++ requirements.problems ++ metadata.problems }

/-- The draft of a document, if it has a contract at all. -/
def ofValue (vocabulary : Vocabulary) (v : Value) : Checked (Option Draft) :=
  match v.get? "contract" with
  | none => .missing "contract" none
  | some contract =>
    if contract.isMapping then (ofContract vocabulary contract).map some
    else .fail "contract" "expected a mapping" none

end Draft
end Covenant
