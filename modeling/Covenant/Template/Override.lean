import Covenant.Template.Base

/-! Overrides: what a jurisdiction adds to the base template of a contract type. The
text for a block is rendered after the content of the base, and cannot hold blocks. -/
namespace Covenant.Template

structure Override where
  contractType : String
  jurisdiction : String
  version : String
  scalars : Table String
  blocks : Table Markup

/-- An override as its document gives it. -/
structure OverrideDraft where
  contractType : String
  jurisdiction : String
  version : String
  scalars : Table String
  blocks : Table (List Char)

/-- The draft in a document with the tables `override`, `scalars` and `blocks`, of which
the last two may be left out. -/
def OverrideDraft.ofToml? (v : Toml.Value) : Option OverrideDraft := do
  let ⟨_, [some header, scalars, blocks]⟩ ← v.fields? ["override", "scalars", "blocks"] | none
  let ⟨_, [some contractType, some jurisdiction, some version]⟩ ←
    header.fields? ["contract_type", "jurisdiction", "version"] | none
  let entries {α : Type} (read : Toml.Value → Option α) : Option Toml.Value → Option (Table α)
    | some v => (v.asTableOf? read).map Table.ofList
    | none => some ∅
  return {
    contractType := ← contractType.asText?
    jurisdiction := ← jurisdiction.asText?
    version := ← version.asText?
    scalars := ← entries (·.asText?) scalars
    blocks := ← entries (·.asChars?) blocks }

namespace Override

/-- The name of an override in error messages. -/
def labelOf (jurisdiction contractType : String) : String := jurisdiction ++ "/" ++ contractType

def label (o : Override) : String := labelOf o.jurisdiction o.contractType

/-- The text with a newline at its end. -/
def terminated (cs : List Char) : List Char :=
  if cs.getLast? = some '\n' then cs else cs ++ ['\n']

/-- Reads the text for a block. -/
def readBlock (label slot : String) (source : List Char) : Except Error Markup :=
  match Markup.ofChars (terminated source) with
  | .error f => .error (.faultyBody label slot f)
  | .ok t => if t.isInlineOnly then .ok t else .error (.nestedBlock label slot)

/-- Reads the texts of the blocks in the order of their slots. -/
def readBlocks (label : String) : List (String × List Char) → Except Error (List (String × Markup))
  | [] => .ok []
  | (slot, source) :: rest => do
    let text ← readBlock label slot source
    let texts ← readBlocks label rest
    return (slot, text) :: texts

/-- The override of a draft; `origin` names the document. -/
def ofDraft (origin : String) (d : OverrideDraft) : Except Error Override := do
  let contractType := Ident.normalize d.contractType
  let jurisdiction := Ident.normalize d.jurisdiction
  if !Ident.isIdent contractType then
    throw (.invalidName origin contractType)
  if !Ident.isIdent jurisdiction then
    throw (.invalidName origin jurisdiction)
  let blocks ← readBlocks (labelOf jurisdiction contractType) d.blocks.entries
  return ⟨contractType, jurisdiction, d.version, d.scalars, Table.ofList blocks⟩

/-- Reads an override document. -/
def read (source origin : String) : Except Error Override :=
  match (Toml.read source).bind OverrideDraft.ofToml? with
  | some d => ofDraft origin d
  | none => .error (.malformedDocument origin)

/-- Every problem of an override laid over a base: slots that the base does not declare
with the kind they are used as. -/
def problems (o : Override) (base : Base) : List Error :=
  let use (slot : String) (kind : SlotKind) := useProblem o.label (base.slots.get? slot) slot kind
  o.scalars.keys.filterMap (use · .scalar) ++
    o.blocks.entries.flatMap fun e =>
      (use e.1 .block).toList ++ e.2.references.filterMap fun r => use r.name.value r.kind

/-- Checks an override against the base it is laid over. -/
def check (o : Override) (base : Base) : Except Error Unit := accept (o.problems base) ()

end Override
end Covenant.Template
