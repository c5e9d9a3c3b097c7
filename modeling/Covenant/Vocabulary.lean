import Covenant.Definition.Basic
import Covenant.Ident

/-! The words a definition may use: trigger verbs, action verbs and party roles. The
roles `payer` and `payee` are always known and keep their class. -/
namespace Covenant

/-- The kinds of words. -/
inductive WordKind where
  | trigger
  | action
  | role
  deriving DecidableEq, Repr

def WordKind.name : WordKind → String
  | .trigger => "trigger"
  | .action => "action"
  | .role => "role"

/-- A word that is not an identifier. -/
structure InvalidWord where
  kind : WordKind
  word : String
  deriving DecidableEq, Repr

def InvalidWord.message (e : InvalidWord) : String :=
  "invalid " ++ e.kind.name ++ " '" ++ e.word ++ "': expected a lower-case identifier"

structure Vocabulary where
  triggers : Table Unit
  actions : Table Unit
  roles : Table RoleClass

namespace Vocabulary

def empty : Vocabulary := ⟨∅, ∅, ∅⟩

/-- The normalized word, if it is an identifier. -/
def checkWord (kind : WordKind) (word : String) : Except InvalidWord String :=
  let w := Ident.normalize word
  if Ident.isIdent w then .ok w else .error ⟨kind, word⟩

def addTrigger (v : Vocabulary) (word : String) : Except InvalidWord Vocabulary :=
  (checkWord .trigger word).map fun w => { v with triggers := v.triggers.insert w () }

def addAction (v : Vocabulary) (word : String) : Except InvalidWord Vocabulary :=
  (checkWord .action word).map fun w => { v with actions := v.actions.insert w () }

/-- Adds a role, or changes the class of one. -/
def addRole (v : Vocabulary) (word : String) (c : RoleClass) : Except InvalidWord Vocabulary :=
  (checkWord .role word).map fun w => { v with roles := v.roles.insert w c }

def isTrigger (v : Vocabulary) (word : String) : Bool := v.triggers.contains word

def isAction (v : Vocabulary) (word : String) : Bool := v.actions.contains word

/-- The role of a name. -/
def role? (v : Vocabulary) (name : String) : Option PartyRole :=
  if name = "payer" then some ⟨"payer", .payer⟩
  else if name = "payee" then some ⟨"payee", .payee⟩
  else (v.roles.get? name).map fun c => ⟨name, c⟩

def ofLists (triggers actions : List String) (roles : List (String × RoleClass)) : Vocabulary :=
  ⟨Table.ofList (triggers.map (·, ())), Table.ofList (actions.map (·, ())), Table.ofList roles⟩

/-- The built-in words. -/
def builtin : Vocabulary :=
  ofLists
    ["delivery_confirmed", "dispute_raised", "claim_submitted", "claim_approved",
      "agreement_reached", "payment_received", "deadline_passed", "inspection_passed"]
    ["release_funds", "freeze_funds", "refund_payer", "process_claim", "pay_claim",
      "execute_settlement", "escalate_dispute", "notify_parties"]
    [("insured", .payer), ("defendant", .payer), ("insurer", .payee), ("plaintiff", .payee),
      ("arbiter", .neutral), ("witness", .neutral), ("agent", .neutral)]

end Vocabulary
end Covenant
