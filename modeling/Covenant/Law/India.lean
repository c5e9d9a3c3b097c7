import Covenant.Law.Regime

/-! The law of India: customer identification by PAN and Aadhaar, goods and services
tax, stamp duty, and the rules of the Reserve Bank. -/
namespace Covenant.Law.India

def kyc : Feature where
  requirement := "kyc_verification"
  declarations := [
    "mapping(address => string) public panNumbers;",
    "mapping(address => string) public aadhaarNumbers;",
    "mapping(address => bool) public kycVerified;"]
  note := some "KYC under the PML Act and RBI master directions"
  failure := "!kycVerified[payer] || !kycVerified[payee]"
  functions := [[
    "function verifyKYC(address party, string calldata pan, string calldata aadhaar) external onlyOwner \x7b",
    "    panNumbers[party] = pan;",
    "    aadhaarNumbers[party] = aadhaar;",
    "    kycVerified[party] = true;",
    "\x7d"]]
  tests := [⟨"KYC Verification", [
    "await contract.verifyKYC(payer.address, \"ABCDE1234F\", \"123456789012\");",
    "expect(await contract.kycVerified(payer.address)).to.equal(true);"]⟩]

def gst : Feature where
  requirement := "gst_compliance"
  declarations := [
    "mapping(address => string) public gstNumbers;",
    "mapping(address => bool) public gstCompliant;"]
  failure := "!gstCompliant[payee]"
  functions := [[
    "function verifyGSTCompliance(address party, string calldata gstNumber) external onlyOwner \x7b",
    "    gstNumbers[party] = gstNumber;",
    "    gstCompliant[party] = true;",
    "\x7d"]]
  tests := [⟨"GST Compliance", [
    "await contract.verifyGSTCompliance(payee.address, \"22AAAAA0000A1Z5\");",
    "expect(await contract.gstCompliant(payee.address)).to.equal(true);"]⟩]

def stampDuty : Feature where
  requirement := "stamp_duty_payment"
  declarations := ["bool public stampDutyPaid;"]
  failure := "!stampDutyPaid"
  functions := [[
    "function recordStampDuty() external onlyOwner \x7b",
    "    stampDutyPaid = true;",
    "\x7d"]]

def regime : Regime where
  id := "india"
  displayName := "India"
  officer := "nodalOfficer"
  features := [kyc, gst, stampDuty]
  authority := "RBI"
  escalation :=
    "Conciliation, then arbitration under the Arbitration and Conciliation Act, 1996"
  deadlines := ["dispute_resolution_days"]

end Covenant.Law.India
