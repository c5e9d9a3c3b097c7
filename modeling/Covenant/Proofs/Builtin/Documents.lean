import Covenant.Builtin.Templates
import Covenant.Proofs.Artifact.Filling
import Covenant.Proofs.Artifact.Layout
import Covenant.Proofs.Artifact.Sealing
import Covenant.Proofs.Builtin.Spelled
import Covenant.Proofs.Code.Names
import Covenant.Proofs.Template.Blocks

/-! What the built-in template documents hold. The bases have the same slots, those that
the facts of a contract fill and three presets; their bodies are sealed and laid out, with
two blocks in them that are not standalone, and the contracts declare four constants. The overrides
add statements without slots, of which those for insurance read a constant of the rules. The
documents are read in the kernel, once each. -/
namespace Covenant.Builtin

open Artifact
open Template (Base BaseDraft Override OverrideDraft SlotKind Segment Inline Markup)

/-! ### Bases -/

/-- The slots that a built-in base presets. -/
def presetSlots : List String := ["dispute_forum", "license", "solidity_version"]

def slots : Table SlotKind := Table.ofList (factKinds ++ presetSlots.map fun s => (s, .scalar))

/-- The blocks on the line below another block, which are not settled as standalone. -/
def runOnBlocks : List String := ["constraint_constants", "jurisdiction_initialization"]

/-- The slots that take free text of a contract to the line, or a line for each of its names. -/
def textSlots : List String :=
  ["description", "definition_version", "payer_name", "payee_name", "party_registration"]

/-- Those of them that a body uses, in order and once each. -/
def textSlotsOf : BodyRole → List String
  | .primary => ["description", "definition_version", "payer_name", "payee_name"]
  | .deploy => ["party_registration"]
  | .test => []

/-- The blocks of the contract itself, in order. -/
def primaryBlocks : List String :=
  ["time_limit_constants", "constraint_constants", "jurisdiction_state", "requirement_registration",
    "jurisdiction_initialization", "compliance_verification", "condition_handlers",
    "dispute_handling", "jurisdiction_functions"]

/-- What a body of a built-in base looks like. -/
structure Body (segs : List Segment) : Prop where
  isSealed : isSealed segs = true
  laidOut : isLaidOut (some []) segs = true
  standalone : ∀ b ∈ Segment.blocks segs, b.standalone = !runOnBlocks.contains b.name.value

instance (segs : List Segment) : Decidable (Body segs) :=
  decidable_of_iff (isSealed segs = true ∧ isLaidOut (some []) segs = true ∧
      ∀ b ∈ Segment.blocks segs, b.standalone = !runOnBlocks.contains b.name.value)
    ⟨fun ⟨h, h', h''⟩ => ⟨h, h', h''⟩, fun h => ⟨h.isSealed, h.laidOut, h.standalone⟩⟩

/-- What a built-in base for a contract type holds. -/
structure BaseFor (contractType : String) (b : Base) : Prop where
  name : b.name = contractType
  version : b.version = "1.0.0"
  slots : b.slots = slots
  presets : b.presets.keys = presetSlots
  unmarked : ∀ text ∈ b.presets.values, hasMarker text.toList = false
  bodies : ∀ p ∈ b.bodies.toList, Body p.2.segments
  texts : ∀ p ∈ b.bodies.toList,
    (p.2.references.map (·.name.value)).filter textSlots.contains = textSlotsOf p.1
  blocks : (Segment.blocks (b.bodies.get .primary).segments).map (·.name.value) = primaryBlocks
  constants : Code.declaredNames (Text.lines (b.bodies.get .primary).source) = Code.ownConstants
  names : ∀ p ∈ b.bodies.toList, ∀ word ∈ Code.names p.2.source, Code.isFunctionName word = false

instance (contractType : String) (b : Base) : Decidable (BaseFor contractType b) :=
  decidable_of_iff (b.name = contractType ∧ b.version = "1.0.0" ∧ b.slots = slots ∧
      b.presets.keys = presetSlots ∧ (∀ text ∈ b.presets.values, hasMarker text.toList = false) ∧
      (∀ p ∈ b.bodies.toList, Body p.2.segments) ∧ (∀ p ∈ b.bodies.toList,
        (p.2.references.map (·.name.value)).filter textSlots.contains = textSlotsOf p.1) ∧
      (Segment.blocks (b.bodies.get .primary).segments).map (·.name.value) = primaryBlocks ∧
      Code.declaredNames (Text.lines (b.bodies.get .primary).source) = Code.ownConstants ∧
      ∀ p ∈ b.bodies.toList, ∀ word ∈ Code.names p.2.source, Code.isFunctionName word = false)
    ⟨fun ⟨h₁, h₂, h₃, h₄, h₅, h₆, h₇, h₈, h₉, h₁₀⟩ => ⟨h₁, h₂, h₃, h₄, h₅, h₆, h₇, h₈, h₉, h₁₀⟩,
      fun h => ⟨h.name, h.version, h.slots, h.presets, h.unmarked, h.bodies, h.texts, h.blocks,
        h.constants, h.names⟩⟩

/-! ### Overrides -/

/-- The characters of the texts among inlines. -/
def plainText (is : List Inline) : List Char :=
  is.flatMap fun
    | .text cs => cs
    | .slot _ => []

/-- The rule constants that the text for a block reads. -/
def readsOf (text : Markup) : List String := Code.reads (plainText text.inlines)

/-- The rule constants that the built-in override of a contract type reads in its blocks. -/
def overrideReads (contractType : String) : List (String × List String) :=
  if contractType = "insurance" then [("jurisdiction_functions", ["COOLING_OFF_DAYS"])]
  else [("compliance_verification", [])]

/-- What a built-in override for a pair holds. -/
structure OverrideFor (contractType jurisdiction : String) (o : Override) : Prop where
  contractType : o.contractType = contractType
  jurisdiction : o.jurisdiction = jurisdiction
  version : o.version = "1.1.0"
  scalars : o.scalars.keys = ["dispute_forum"]
  unmarked : ∀ text ∈ o.scalars.values, hasMarker text.toList = false
  blocks : ∀ e ∈ o.blocks.entries, slots.get? e.1 = some .block ∧ e.2.references = [] ∧
    isSealed (e.2.inlines.map .inline) = true
  reads : o.blocks.entries.map (fun e => (e.1, readsOf e.2)) = overrideReads o.contractType
  names : ∀ e ∈ o.blocks.entries, ∀ word ∈ Code.names e.2.source, Code.isFunctionName word = false

instance (contractType jurisdiction : String) (o : Override) :
    Decidable (OverrideFor contractType jurisdiction o) :=
  decidable_of_iff (o.contractType = contractType ∧ o.jurisdiction = jurisdiction ∧
      o.version = "1.1.0" ∧ o.scalars.keys = ["dispute_forum"] ∧
      (∀ text ∈ o.scalars.values, hasMarker text.toList = false) ∧
      (∀ e ∈ o.blocks.entries, slots.get? e.1 = some .block ∧ e.2.references = [] ∧
        isSealed (e.2.inlines.map .inline) = true) ∧
      o.blocks.entries.map (fun e => (e.1, readsOf e.2)) = overrideReads o.contractType ∧
      ∀ e ∈ o.blocks.entries, ∀ word ∈ Code.names e.2.source, Code.isFunctionName word = false)
    ⟨fun ⟨h₁, h₂, h₃, h₄, h₅, h₆, h₇, h₈⟩ => ⟨h₁, h₂, h₃, h₄, h₅, h₆, h₇, h₈⟩,
      fun h => ⟨h.contractType, h.jurisdiction, h.version, h.scalars, h.unmarked, h.blocks, h.reads,
        h.names⟩⟩

/-! ### From the characters of the lines -/

set_option maxRecDepth 40000 in
theorem escrow_read : ∃ b, Base.read escrow.text escrow.name = .ok b ∧ BaseFor "escrow" b := by
  apply base_of_spelled
  · unfold escrow
    dsimp only
    repeat (apply Text.Spelled.cons; exact rfl)
    exact .nil
  · decide +kernel

set_option maxRecDepth 40000 in
theorem insurance_read :
    ∃ b, Base.read insurance.text insurance.name = .ok b ∧ BaseFor "insurance" b := by
  apply base_of_spelled
  · unfold insurance
    dsimp only
    repeat (apply Text.Spelled.cons; exact rfl)
    exact .nil
  · decide +kernel

set_option maxRecDepth 40000 in
theorem settlement_read :
    ∃ b, Base.read settlement.text settlement.name = .ok b ∧ BaseFor "settlement" b := by
  apply base_of_spelled
  · unfold settlement
    dsimp only
    repeat (apply Text.Spelled.cons; exact rfl)
    exact .nil
  · decide +kernel

theorem indiaEscrow_read : ∃ o, Override.read indiaEscrow.text indiaEscrow.name = .ok o ∧
    OverrideFor "escrow" "india" o := by
  apply override_of_spelled
  · unfold indiaEscrow
    dsimp only
    repeat (apply Text.Spelled.cons; exact rfl)
    exact .nil
  · decide +kernel

theorem euInsurance_read : ∃ o, Override.read euInsurance.text euInsurance.name = .ok o ∧
    OverrideFor "insurance" "eu" o := by
  apply override_of_spelled
  · unfold euInsurance
    dsimp only
    repeat (apply Text.Spelled.cons; exact rfl)
    exact .nil
  · decide +kernel

theorem usSettlement_read : ∃ o, Override.read usSettlement.text usSettlement.name = .ok o ∧
    OverrideFor "settlement" "us" o := by
  apply override_of_spelled
  · unfold usSettlement
    dsimp only
    repeat (apply Text.Spelled.cons; exact rfl)
    exact .nil
  · decide +kernel

end Covenant.Builtin
