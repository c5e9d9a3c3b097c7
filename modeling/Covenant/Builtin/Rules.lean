import Covenant.Law.EuropeanUnion
import Covenant.Law.India
import Covenant.Law.UnitedStates
import Covenant.Rules.Rulebook
import Covenant.Text.Lines

/-! The law that comes with the program: the rulebook of the built-in jurisdictions, and their
handlers. -/
namespace Covenant.Builtin

/-! ### Rules -/

/-- The built-in rule source. -/
def jurisdictions : Document :=
  ⟨"jurisdictions.yaml", [
    "# Built-in jurisdiction rule table.",
    "#",
    "# jurisdiction -> contract type -> rule set. Operators supply their own table",
    "# through `--rules` or the `[sources] rules` config key; this one is a sample.",
    "",
    "india:",
    "  escrow:",
    "    legal_requirements: [kyc_verification, gst_compliance]",
    "    mandatory_clauses: [dispute_resolution, refund_policy, governing_law]",
    "    time_limits:",
    "      dispute_resolution_days: 30",
    "      refund_window_days: 7",
    "    constraints:",
    "      max_amount: 1000000",
    "  insurance:",
    "    legal_requirements: [kyc_verification, irdai_registration]",
    "    mandatory_clauses: [claim_settlement, free_look_period, governing_law]",
    "    time_limits:",
    "      claim_settlement_days: 30",
    "      free_look_days: 15",
    "    constraints:",
    "      max_premium: 500000",
    "  settlement:",
    "    legal_requirements: [kyc_verification, stamp_duty_payment]",
    "    mandatory_clauses: [release_of_claims, governing_law]",
    "    time_limits:",
    "      dispute_resolution_days: 30",
    "      payment_days: 14",
    "",
    "eu:",
    "  escrow:",
    "    legal_requirements: [gdpr_compliance, psd2_compliance, aml_kyc_requirements]",
    "    mandatory_clauses: [data_protection, right_of_withdrawal, governing_law]",
    "    time_limits:",
    "      dispute_resolution_days: 30",
    "      withdrawal_days: 14",
    "    constraints:",
    "      max_amount: 1000000",
    "  insurance:",
    "    legal_requirements: [gdpr_compliance, solvency_ii_compliance, consumer_protection_laws]",
    "    mandatory_clauses: [data_protection, cooling_off_period, governing_law]",
    "    time_limits:",
    "      claim_settlement_days: 30",
    "      cooling_off_days: 14",
    "  settlement:",
    "    legal_requirements: [gdpr_compliance, mica_compliance]",
    "    mandatory_clauses: [data_protection, release_of_claims]",
    "    time_limits:",
    "      dispute_resolution_days: 30",
    "",
    "us:",
    "  escrow:",
    "    legal_requirements: [aml_kyc_requirements, state_specific_laws, ucc_compliance]",
    "    mandatory_clauses: [dispute_resolution, governing_law]",
    "    time_limits:",
    "      dispute_resolution_days: 30",
    "      state_compliance_days: 15",
    "    constraints:",
    "      max_amount: 10000000",
    "  insurance:",
    "    legal_requirements: [state_insurance_license, consumer_protection]",
    "    mandatory_clauses: [claim_settlement, governing_law]",
    "    time_limits:",
    "      claim_settlement_days: 30",
    "  settlement:",
    "    legal_requirements: [sec_registration, state_specific_laws]",
    "    mandatory_clauses: [release_of_claims, governing_law]",
    "    time_limits:",
    "      sec_filing_days: 10",
    "      payment_days: 30"]⟩

def rules? : Except Rules.Error Rules.Rulebook := Rules.Rulebook.load [jurisdictions.text]

/-- The built-in rulebook. -/
def rules : Rules.Rulebook := rules?.toOption.getD Rules.Rulebook.empty

/-! ### Handlers -/

def regimes : List Law.Regime :=
  [Law.India.regime, Law.EuropeanUnion.regime, Law.UnitedStates.regime]

/-- The handlers of the built-in jurisdictions. Irreducible, so that no unification sorts them. -/
@[irreducible]
def handlers : Law.Handlers := ⟨Table.ofList (regimes.map fun r => (r.id, r.handler))⟩

end Covenant.Builtin
