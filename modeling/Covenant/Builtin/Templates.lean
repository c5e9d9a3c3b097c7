import Covenant.Builtin.Escrow
import Covenant.Builtin.Insurance
import Covenant.Builtin.Settlement
import Covenant.Template.Library

/-! The template library that comes with the program. -/
namespace Covenant.Builtin

/-! ### Overrides -/

/-- The override of the escrow template for India. -/
def indiaEscrow : Document :=
  ⟨"india_escrow.toml", [
    "# Indian escrow accounts are regulated by RBI directions on payment",
    "# intermediaries; disputes go to arbitration seated in India.",
    "",
    "[override]",
    "contract_type = \"escrow\"",
    "jurisdiction = \"india\"",
    "version = \"1.1.0\"",
    "",
    "[scalars]",
    "dispute_forum = \"Arbitral tribunal seated in India (Arbitration and Conciliation Act, 1996)\"",
    "",
    "[blocks]",
    "compliance_verification = '''",
    "// RBI payment intermediary directions: payer and payee must differ",
    "if (payer == payee) \x7b",
    "    return false;",
    "\x7d",
    "'''"]⟩

/-- The override of the insurance template for the European Union. -/
def euInsurance : Document :=
  ⟨"eu_insurance.toml", [
    "# EU distance-marketed insurance carries a cooling-off right; complaints go",
    "# through the FIN-NET network of national schemes.",
    "",
    "[override]",
    "contract_type = \"insurance\"",
    "jurisdiction = \"eu\"",
    "version = \"1.1.0\"",
    "",
    "[scalars]",
    "dispute_forum = \"FIN-NET out-of-court complaint scheme\"",
    "",
    "[blocks]",
    "jurisdiction_functions = '''",
    "",
    "/// Cooling-off right of the insured (Directive 2002/65/EC)",
    "function withdrawalWindowOpen() external view returns (bool) \x7b",
    "    return block.timestamp <= createdAt + COOLING_OFF_DAYS * 1 days;",
    "\x7d",
    "'''"]⟩

/-- The override of the settlement template for the United States. -/
def usSettlement : Document :=
  ⟨"us_settlement.toml", [
    "# US settlements involving registered securities are heard by FINRA",
    "# arbitration and must carry consideration.",
    "",
    "[override]",
    "contract_type = \"settlement\"",
    "jurisdiction = \"us\"",
    "version = \"1.1.0\"",
    "",
    "[scalars]",
    "dispute_forum = \"FINRA Dispute Resolution Services\"",
    "",
    "[blocks]",
    "compliance_verification = '''",
    "// A settlement without consideration is unenforceable",
    "if (amount == 0) \x7b",
    "    return false;",
    "\x7d",
    "'''"]⟩

/-! ### The library -/

def bases : List Document := [escrow, insurance, settlement]

def overrides : List Document := [indiaEscrow, euInsurance, usSettlement]

/-- The library of the built-in documents, or the first thing wrong with them. -/
def templates? : Except Template.Error Template.Library := do
  let library ← bases.foldlM (fun l d => do l.register (← Template.Base.read d.text d.name))
    Template.Library.empty
  overrides.foldlM (fun l d => do l.registerOverride (← Template.Override.read d.text d.name)) library

/-- The built-in template library. Irreducible, so that no unification reads the documents. -/
@[irreducible]
def templates : Template.Library := templates?.toOption.getD Template.Library.empty

end Covenant.Builtin
