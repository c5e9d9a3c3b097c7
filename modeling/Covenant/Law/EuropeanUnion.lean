import Covenant.Law.Regime

/-! The law of the European Union: data protection, payment services, money laundering
and markets in crypto-assets. -/
namespace Covenant.Law.EuropeanUnion

def dataProtection : Feature where
  requirement := "gdpr_compliance"
  declarations := ["mapping(address => bool) public gdprCompliant;"]
  note := some "Lawful processing basis recorded under GDPR Art. 6"
  failure := "!gdprCompliant[payer] || !gdprCompliant[payee]"
  functions := [[
    "function verifyGDPRCompliance(address party) external onlyOwner \x7b",
    "    gdprCompliant[party] = true;",
    "\x7d"]]
  tests := [⟨"GDPR Compliance", [
    "await contract.verifyGDPRCompliance(payer.address);",
    "expect(await contract.gdprCompliant(payer.address)).to.equal(true);"]⟩]

def paymentServices : Feature where
  requirement := "psd2_compliance"
  declarations := ["mapping(address => bool) public psd2Compliant;"]
  failure := "!psd2Compliant[payer]"
  functions := [[
    "function verifyPSD2Compliance(address party) external onlyOwner \x7b",
    "    psd2Compliant[party] = true;",
    "\x7d"]]
  tests := [⟨"PSD2 Compliance", [
    "await contract.verifyPSD2Compliance(payer.address);",
    "expect(await contract.psd2Compliant(payer.address)).to.equal(true);"]⟩]

def moneyLaundering : Feature where
  requirement := "aml_kyc_requirements"
  declarations := ["mapping(address => bool) public amlCleared;"]
  failure := "!amlCleared[payer] || !amlCleared[payee]"
  functions := [[
    "function clearAML(address party) external onlyOwner \x7b",
    "    amlCleared[party] = true;",
    "\x7d"]]

def cryptoAssets : Feature where
  requirement := "mica_compliance"
  declarations := ["string public micaWhitePaperUri;"]
  failure := "bytes(micaWhitePaperUri).length == 0"
  functions := [[
    "function publishWhitePaper(string calldata uri) external onlyOwner \x7b",
    "    micaWhitePaperUri = uri;",
    "\x7d"]]

def regime : Regime where
  id := "eu"
  displayName := "European Union"
  officer := "dataProtectionOfficer"
  features := [dataProtection, paymentServices, moneyLaundering, cryptoAssets]
  authority := "ESMA"
  escalation := "Referral to an ADR entity under Directive 2013/11/EU"
  deadlines := ["dispute_resolution_days"]
  functions := [[
    "function setDataProtectionOfficer(address officer) external onlyOwner \x7b",
    "    dataProtectionOfficer = officer;",
    "\x7d"]]

end Covenant.Law.EuropeanUnion
