import Covenant.Proofs.Builtin.Jurisdictions
import Covenant.Proofs.Builtin.Templates
import Covenant.Proofs.Code.Declared

/-! Whether the constants of a contract have distinct names. The contracts of the built-in templates
declare four constants of their own and then those of the rules. Nothing keeps a time limit and a
constraint from having one name, or either from having that of one of the four. -/
namespace Covenant.Builtin

open Rules (Rulebook RuleSet)
open Code (declaredNames ruleConstants declares ownConstants)

/-- For every rule set of a loaded rulebook, the constants that are declared for its time limits and
its constraints have distinct names exactly when no time limit has the name of a constraint with a
whole value, and names distinct from those that the built-in templates declare exactly when none of
its time limits and constraints with whole values is named after one of these. -/
theorem constants_distinct_iff {texts : List String} {b : Rulebook}
    (hload : Rulebook.load texts = .ok b) {jurisdiction contractType : String} {r : RuleSet}
    (hr : b.lookup jurisdiction contractType = some r) :
    ((declaredNames (ruleConstants r)).Nodup ↔
      ∀ name, (r.timeLimit? name).isSome = true →
        (r.constraint? name).bind Law.wholeConstant = none) ∧
    ((∀ name ∈ declaredNames (ruleConstants r), name ∉ ownConstants) ↔
      ∀ name ∈ ["contract_type", "jurisdiction", "dispute_forum", "legal_requirement_count"],
        declares r name = false) ∧
    ∀ type base, templates.get? type = some base →
      declaredNames (Text.lines (base.bodies.get .primary).source) = ownConstants := by
  have hformed := (Rulebook.lookup_sound (Rulebook.sound_of_load hload) hr).1
  exact ⟨Code.nodup_declaredNames_iff hformed, Code.forall_notMem_ownConstants_iff hformed,
    fun _ _ hbase => (templates_holds.baseFor hbase).constants⟩

example : declaredNames (ruleConstants indiaEscrowRules) =
    ["DISPUTE_RESOLUTION_DAYS", "REFUND_WINDOW_DAYS", "MAX_AMOUNT"] := by
  decide +kernel

/-- The built-in rules of escrows in India keep all names apart. -/
theorem indiaEscrow_constants_distinct :
    Rulebook.load [jurisdictions.text] = .ok rules ∧
      rules.lookup "india" "escrow" = some indiaEscrowRules ∧
      (declaredNames (ruleConstants indiaEscrowRules)).Nodup ∧
      ∀ name ∈ declaredNames (ruleConstants indiaEscrowRules), name ∉ ownConstants := by
  obtain ⟨hnodup, hapart, -⟩ := constants_distinct_iff rules_load rules_lookup
  refine ⟨rules_load, rules_lookup, hnodup.2 fun name hlimit => ?_, hapart.2 (by decide +kernel)⟩
  have hkey : name ∈ indiaEscrowRules.timeLimits.keys := Table.mem_keys.2 hlimit
  have hfree : ∀ key ∈ indiaEscrowRules.timeLimits.keys,
      (indiaEscrowRules.constraint? key).bind Law.wholeConstant = none := by decide +kernel
  exact hfree name hkey

def clashSource : String :=
  "\x7bus: \x7bescrow: \x7blegal_requirements: [kyc_verification], " ++
    "time_limits: \x7bjurisdiction: 3, max_amount: 30\x7d, constraints: \x7bmax_amount: 5\x7d\x7d\x7d\x7d"

def clashRules : RuleSet :=
  ⟨"us", "escrow", ["kyc_verification"], [], Table.ofList [("jurisdiction", 3), ("max_amount", 30)],
    Table.ofList [("max_amount", .ofNat 5)]⟩

def clashRulebook : Rulebook := ⟨Table.ofList [("us", Table.ofList [("escrow", clashRules)])]⟩

/-- A time limit and a constraint of one name are declared as one constant twice, and a time limit
may have the name of a constant of the templates. -/
theorem clash_declared_twice :
    Rulebook.load [clashSource] = .ok clashRulebook ∧
      clashRulebook.lookup "us" "escrow" = some clashRules ∧
      declaredNames (ruleConstants clashRules) = ["JURISDICTION", "MAX_AMOUNT", "MAX_AMOUNT"] ∧
      ¬(declaredNames (ruleConstants clashRules)).Nodup ∧ "JURISDICTION" ∈ ownConstants := by
  have hload : Rulebook.load [clashSource] = .ok clashRulebook := by decide +kernel
  have hlookup : clashRulebook.lookup "us" "escrow" = some clashRules := by decide +kernel
  have hformed := (Rulebook.lookup_sound (Rulebook.sound_of_load hload) hlookup).1
  have hnames : declaredNames (ruleConstants clashRules) =
      ["JURISDICTION", "MAX_AMOUNT", "MAX_AMOUNT"] := by
    rw [Code.declaredNames_ruleConstants hformed]
    decide +kernel
  refine ⟨hload, hlookup, hnames, ?_, List.mem_of_elem_eq_true rfl⟩
  rw [hnames]
  decide

end Covenant.Builtin
