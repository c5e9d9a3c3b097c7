import Covenant.Text.Lines

/-! The base template of settlement contracts. -/
namespace Covenant.Builtin

/-- Settlement: the defendant deposits, agreement pays out. -/
def settlement : Document :=
  ⟨"settlement.toml", [
    "# Base template for settlement agreements.",
    "#",
    "# The defendant (payer) deposits the settlement sum; once both sides accept,",
    "# a condition executes the settlement in favour of the plaintiff (payee).",
    "",
    "[template]",
    "name = \"settlement\"",
    "version = \"1.0.0\"",
    "",
    "[slots]",
    "license = \"scalar\"",
    "solidity_version = \"scalar\"",
    "dispute_forum = \"scalar\"",
    "contract_name = \"scalar\"",
    "contract_type = \"scalar\"",
    "jurisdiction = \"scalar\"",
    "jurisdiction_name = \"scalar\"",
    "definition_version = \"scalar\"",
    "description = \"scalar\"",
    "template_version = \"scalar\"",
    "payer_name = \"scalar\"",
    "payer_address = \"scalar\"",
    "payee_name = \"scalar\"",
    "payee_address = \"scalar\"",
    "legal_requirements = \"scalar\"",
    "legal_requirement_count = \"scalar\"",
    "mandatory_clauses = \"scalar\"",
    "time_limit_constants = \"block\"",
    "constraint_constants = \"block\"",
    "jurisdiction_state = \"block\"",
    "requirement_registration = \"block\"",
    "jurisdiction_initialization = \"block\"",
    "compliance_verification = \"block\"",
    "condition_handlers = \"block\"",
    "dispute_handling = \"block\"",
    "jurisdiction_functions = \"block\"",
    "party_registration = \"block\"",
    "test_cases = \"block\"",
    "",
    "[scalars]",
    "license = \"MIT\"",
    "solidity_version = \"^0.8.19\"",
    "dispute_forum = \"Court that approved the settlement\"",
    "",
    "[bodies]",
    "primary = '''",
    "// SPDX-License-Identifier: \x7b\x7b license \x7d\x7d",
    "pragma solidity \x7b\x7b solidity_version \x7d\x7d;",
    "",
    "/// @title \x7b\x7b contract_name \x7d\x7d",
    "/// @notice \x7b\x7b description \x7d\x7d",
    "/// @dev Settlement agreement (\x7b\x7b contract_type \x7d\x7d) under \x7b\x7b jurisdiction_name \x7d\x7d law (\x7b\x7b jurisdiction \x7d\x7d).",
    "/// Definition version \x7b\x7b definition_version \x7d\x7d, template \x7b\x7b template_version \x7d\x7d.",
    "/// Legal requirements: \x7b\x7b legal_requirements \x7d\x7d",
    "/// Mandatory clauses: \x7b\x7b mandatory_clauses \x7d\x7d",
    "/// Paying party: \x7b\x7b payer_name \x7d\x7d (\x7b\x7b payer_address \x7d\x7d)",
    "/// Receiving party: \x7b\x7b payee_name \x7d\x7d (\x7b\x7b payee_address \x7d\x7d)",
    "contract \x7b\x7b contract_name \x7d\x7d \x7b",
    "    string public constant CONTRACT_TYPE = \"\x7b\x7b contract_type \x7d\x7d\";",
    "    string public constant JURISDICTION = \"\x7b\x7b jurisdiction \x7d\x7d\";",
    "    string public constant DISPUTE_FORUM = \"\x7b\x7b dispute_forum \x7d\x7d\";",
    "    uint256 public constant LEGAL_REQUIREMENT_COUNT = \x7b\x7b legal_requirement_count \x7d\x7d;",
    "    \x7b\x7b#block time_limit_constants\x7d\x7d",
    "    \x7b\x7b/block\x7d\x7d",
    "    \x7b\x7b#block constraint_constants\x7d\x7d",
    "    \x7b\x7b/block\x7d\x7d",
    "",
    "    enum State \x7b Created, Funded, Settled, Refunded, Disputed \x7d",
    "",
    "    address public owner;",
    "    address public payer;",
    "    address public payee;",
    "    uint256 public amount;",
    "    uint256 public createdAt;",
    "    uint256 public disputeDeadline;",
    "    State public state;",
    "    string[] private legalRequirements;",
    "    mapping(address => bool) public accepted;",
    "    mapping(address => bool) public verifiedParties;",
    "    mapping(string => bool) public requirementAttested;",
    "    mapping(uint256 => bool) public conditionExecuted;",
    "    \x7b\x7b#block jurisdiction_state\x7d\x7d",
    "    \x7b\x7b/block\x7d\x7d",
    "",
    "    event Funded(address indexed from, uint256 amount);",
    "    event SettlementAccepted(address indexed party);",
    "    event ActionPerformed(string action, uint256 timestamp);",
    "    event ConditionExecuted(uint256 indexed index, string trigger, string action);",
    "    event DisputeRaised(address indexed by, string reason);",
    "    event DisputeEscalated(string forum, uint256 deadline);",
    "    event RequirementAttested(string requirement, address indexed by);",
    "",
    "    modifier onlyOwner() \x7b",
    "        require(msg.sender == owner, \"Only owner\");",
    "        _;",
    "    \x7d",
    "",
    "    modifier onlyParty() \x7b",
    "        require(msg.sender == payer || msg.sender == payee || msg.sender == owner, \"Only contract parties\");",
    "        _;",
    "    \x7d",
    "",
    "    constructor(address _payer, address _payee) \x7b",
    "        require(_payer != address(0) && _payee != address(0), \"Party address required\");",
    "        owner = msg.sender;",
    "        payer = _payer;",
    "        payee = _payee;",
    "        createdAt = block.timestamp;",
    "        state = State.Created;",
    "        \x7b\x7b#block requirement_registration\x7d\x7d",
    "        \x7b\x7b/block\x7d\x7d",
    "        \x7b\x7b#block jurisdiction_initialization\x7d\x7d",
    "        \x7b\x7b/block\x7d\x7d",
    "    \x7d",
    "",
    "    /// Deposit of the settlement sum by the paying party",
    "    function fund() external payable \x7b",
    "        require(msg.sender == payer, \"Only the paying party deposits\");",
    "        require(state == State.Created, \"Settlement already funded\");",
    "        amount = msg.value;",
    "        require(verifyLegalCompliance(), \"Legal compliance not satisfied\");",
    "        state = State.Funded;",
    "        emit Funded(msg.sender, msg.value);",
    "    \x7d",
    "",
    "    function acceptSettlement() external \x7b",
    "        require(msg.sender == payer || msg.sender == payee, \"Only the settling parties\");",
    "        accepted[msg.sender] = true;",
    "        emit SettlementAccepted(msg.sender);",
    "    \x7d",
    "",
    "    function attestRequirement(string calldata requirement) external onlyOwner \x7b",
    "        requirementAttested[requirement] = true;",
    "        emit RequirementAttested(requirement, msg.sender);",
    "    \x7d",
    "",
    "    function verifyParty(address party) external onlyOwner \x7b",
    "        verifiedParties[party] = true;",
    "    \x7d",
    "",
    "    function verifyLegalCompliance() public view returns (bool) \x7b",
    "        for (uint256 i = 0; i < legalRequirements.length; i++) \x7b",
    "            if (!requirementAttested[legalRequirements[i]]) \x7b",
    "                return false;",
    "            \x7d",
    "        \x7d",
    "        \x7b\x7b#block compliance_verification\x7d\x7d",
    "        \x7b\x7b/block\x7d\x7d",
    "        return true;",
    "    \x7d",
    "",
    "    function getLegalRequirements() external view returns (string[] memory) \x7b",
    "        return legalRequirements;",
    "    \x7d",
    "",
    "    \x7b\x7b#block condition_handlers\x7d\x7d",
    "    \x7b\x7b/block\x7d\x7d",
    "    function raiseDispute(string calldata reason) external onlyParty \x7b",
    "        require(state != State.Disputed, \"Dispute already raised\");",
    "        state = State.Disputed;",
    "        emit DisputeRaised(msg.sender, reason);",
    "        \x7b\x7b#block dispute_handling\x7d\x7d",
    "        \x7b\x7b/block\x7d\x7d",
    "    \x7d",
    "",
    "    function _performAction(string memory action) internal \x7b",
    "        bytes32 key = keccak256(bytes(action));",
    "        if (key == keccak256(bytes(\"execute_settlement\")) || key == keccak256(bytes(\"release_funds\"))) \x7b",
    "            require(accepted[payer] && accepted[payee], \"Both parties must accept\");",
    "            _transfer(payee);",
    "            state = State.Settled;",
    "        \x7d else if (key == keccak256(bytes(\"refund_payer\"))) \x7b",
    "            _transfer(payer);",
    "            state = State.Refunded;",
    "        \x7d else if (key == keccak256(bytes(\"freeze_funds\")) || key == keccak256(bytes(\"escalate_dispute\"))) \x7b",
    "            state = State.Disputed;",
    "        \x7d",
    "        emit ActionPerformed(action, block.timestamp);",
    "    \x7d",
    "",
    "    function _transfer(address to) private \x7b",
    "        uint256 value = amount;",
    "        amount = 0;",
    "        (bool ok, ) = payable(to).call\x7bvalue: value\x7d(\"\");",
    "        require(ok, \"Transfer failed\");",
    "    \x7d",
    "    \x7b\x7b#block jurisdiction_functions\x7d\x7d",
    "    \x7b\x7b/block\x7d\x7d",
    "\x7d",
    "'''",
    "",
    "deploy = '''",
    "// Deployment script for \x7b\x7b contract_name \x7d\x7d",
    "// Contract type: \x7b\x7b contract_type \x7d\x7d; jurisdiction: \x7b\x7b jurisdiction \x7d\x7d (\x7b\x7b jurisdiction_name \x7d\x7d)",
    "// Legal requirements: \x7b\x7b legal_requirements \x7d\x7d",
    "const \x7b ethers \x7d = require(\"hardhat\");",
    "",
    "const PARTIES = [",
    "  \x7b\x7b#block party_registration\x7d\x7d",
    "  \x7b\x7b/block\x7d\x7d",
    "];",
    "",
    "const LEGAL_REQUIREMENTS = \x7b\x7b legal_requirements \x7d\x7d;",
    "",
    "async function main() \x7b",
    "  const [deployer] = await ethers.getSigners();",
    "  const payer = process.env.PAYER_ADDRESS || \"\x7b\x7b payer_address \x7d\x7d\";",
    "  const payee = process.env.PAYEE_ADDRESS || \"\x7b\x7b payee_address \x7d\x7d\";",
    "",
    "  console.log(\"Deploying \x7b\x7b contract_name \x7d\x7d with\", deployer.address);",
    "  const Factory = await ethers.getContractFactory(\"\x7b\x7b contract_name \x7d\x7d\");",
    "  const contract = await Factory.deploy(payer, payee);",
    "  await contract.waitForDeployment();",
    "  console.log(\"\x7b\x7b contract_name \x7d\x7d deployed to\", await contract.getAddress());",
    "",
    "  for (const party of PARTIES) \x7b",
    "    if (!party.verificationRequired) \x7b",
    "      await (await contract.verifyParty(party.address)).wait();",
    "    \x7d",
    "  \x7d",
    "  console.log(\"Requirements awaiting attestation:\", LEGAL_REQUIREMENTS.join(\", \"));",
    "\x7d",
    "",
    "main().catch((error) => \x7b",
    "  console.error(error);",
    "  process.exitCode = 1;",
    "\x7d);",
    "'''",
    "",
    "test = '''",
    "// Test scaffold for \x7b\x7b contract_name \x7d\x7d",
    "// Contract type: \x7b\x7b contract_type \x7d\x7d; jurisdiction: \x7b\x7b jurisdiction \x7d\x7d",
    "// Legal requirements: \x7b\x7b legal_requirements \x7d\x7d",
    "const \x7b expect \x7d = require(\"chai\");",
    "const \x7b ethers \x7d = require(\"hardhat\");",
    "",
    "describe(\"\x7b\x7b contract_name \x7d\x7d\", function () \x7b",
    "  let contract;",
    "  let owner;",
    "  let payer;",
    "  let payee;",
    "",
    "  beforeEach(async function () \x7b",
    "    [owner, payer, payee] = await ethers.getSigners();",
    "    const Factory = await ethers.getContractFactory(\"\x7b\x7b contract_name \x7d\x7d\");",
    "    contract = await Factory.deploy(payer.address, payee.address);",
    "    await contract.waitForDeployment();",
    "  \x7d);",
    "",
    "  it(\"Settlement Acceptance\", async function () \x7b",
    "    await contract.connect(payer).acceptSettlement();",
    "    expect(await contract.accepted(payer.address)).to.equal(true);",
    "    expect(await contract.accepted(payee.address)).to.equal(false);",
    "  \x7d);",
    "",
    "  \x7b\x7b#block test_cases\x7d\x7d",
    "  \x7b\x7b/block\x7d\x7d",
    "\x7d);",
    "'''"]⟩

end Covenant.Builtin
