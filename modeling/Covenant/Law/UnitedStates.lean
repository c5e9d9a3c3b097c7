import Covenant.Law.Regime

/-! The law of the United States: registration with the federal authorities, licences
and laws of the states, and money laundering. -/
namespace Covenant.Law.UnitedStates

def securities : Feature where
  requirement := "sec_registration"
  declarations := [
    "mapping(address => bool) public secRegistered;",
    "mapping(address => bool) public finraRegistered;"]
  note := some "Registration with the SEC and FINRA"
  failure := "!secRegistered[payee] || !finraRegistered[payee]"
  functions := [[
    "function verifySECRegistration(address party) external onlyOwner \x7b",
    "    secRegistered[party] = true;",
    "\x7d"], [
    "function verifyFINRARegistration(address party) external onlyOwner \x7b",
    "    finraRegistered[party] = true;",
    "\x7d"]]
  tests := [⟨"SEC Registration", [
    "await contract.verifySECRegistration(payee.address);",
    "expect(await contract.secRegistered(payee.address)).to.equal(true);"]⟩]

def stateLaw : Feature where
  requirement := "state_specific_laws"
  declarations := ["mapping(address => string) public stateOfResidence;"]
  failure := "bytes(stateOfResidence[payer]).length == 0"
  functions := [[
    "function setStateOfResidence(address party, string calldata usState) external onlyOwner \x7b",
    "    stateOfResidence[party] = usState;",
    "\x7d"]]
  tests := [⟨"State of Residence", [
    "await contract.setStateOfResidence(payer.address, \"NY\");",
    "expect(await contract.stateOfResidence(payer.address)).to.equal(\"NY\");"]⟩]

def insuranceLicence : Feature where
  requirement := "state_insurance_license"
  declarations := ["mapping(address => bool) public stateLicensed;"]
  failure := "!stateLicensed[payee]"
  functions := [[
    "function verifyStateLicense(address party) external onlyOwner \x7b",
    "    stateLicensed[party] = true;",
    "\x7d"]]

def moneyLaundering : Feature where
  requirement := "aml_kyc_requirements"
  declarations := ["mapping(address => bool) public amlCleared;"]
  failure := "!amlCleared[payer] || !amlCleared[payee]"
  functions := [[
    "function clearAML(address party) external onlyOwner \x7b",
    "    amlCleared[party] = true;",
    "\x7d"]]

def regime : Regime where
  id := "us"
  displayName := "United States"
  officer := "complianceOfficer"
  features := [securities, stateLaw, insuranceLicence, moneyLaundering]
  authority := "FinCEN"
  escalation :=
    "Escalation under the governing state's law; SEC matters follow federal procedure"
  deadlines := ["sec_filing_days", "dispute_resolution_days"]

end Covenant.Law.UnitedStates
