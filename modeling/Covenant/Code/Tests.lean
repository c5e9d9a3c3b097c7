import Covenant.Code.Conditions
import Covenant.Law.Handler

/-! The scaffold of tests: the tests of every contract, one for each condition, and
those of the jurisdiction. -/
namespace Covenant.Code

open Law (Context TestCase)

def creationTest (jurisdiction : String) : TestCase :=
  ⟨"Contract Creation", [
    "expect(await contract.payer()).to.equal(payer.address);",
    "expect(await contract.payee()).to.equal(payee.address);",
    "expect(await contract.JURISDICTION()).to.equal(\"" ++ jurisdiction ++ "\");"]⟩

def complianceTest (requirements : List String) : TestCase :=
  ⟨"Legal Compliance", [
    "const requirements = await contract.getLegalRequirements();",
    "expect(requirements).to.deep.equal(" ++ Text.quotedList requirements ++ ");",
    "expect(await contract.verifyLegalCompliance()).to.equal(false);"]⟩

def conditionTest (i : Nat) (name : String) (c : Condition) : TestCase :=
  ⟨"Condition " ++ toString (i + 1) ++ ": " ++ c.trigger ++ " triggers " ++ c.action, [
    "await expect(contract.connect(payer)." ++ name ++
      "()).to.emit(contract, \"ConditionExecuted\");"]⟩

def conditionTestsFrom (i : Nat) : List (String × Condition) → List TestCase
  | [] => []
  | (name, c) :: rest => conditionTest i name c :: conditionTestsFrom (i + 1) rest

/-- The tests that do not depend on the jurisdiction. -/
def contractTests (ctx : Context) : List TestCase :=
  [creationTest ctx.definition.jurisdiction, complianceTest ctx.requirements] ++
    conditionTestsFrom 0 (named ctx.definition.conditions)

/-- The lines of a test. -/
def testLines (t : TestCase) : List String :=
  ["it(\"" ++ Text.safe t.name ++ "\", async function () \x7b"] ++ t.body.map ("  " ++ ·) ++ ["\x7d);"]

/-- The lines of tests, with an empty line between two of them. -/
def testSuite : List TestCase → List String
  | [] => []
  | t :: rest => testLines t ++ rest.flatMap fun t => "" :: testLines t

end Covenant.Code
