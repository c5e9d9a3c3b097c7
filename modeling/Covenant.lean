import Covenant.Command
import Covenant.Files.Tree
import Covenant.Main
import Covenant.Template.Report
import Covenant.Proofs.Definition.Acceptance
import Covenant.Proofs.Definition.Bounds
import Covenant.Proofs.Definition.Reported
import Covenant.Proofs.Rules.Union
import Covenant.Proofs.Template.Standalone
import Covenant.Proofs.Template.Order
import Covenant.Proofs.Template.References
import Covenant.Proofs.Template.Faults
import Covenant.Proofs.Template.Texts
import Covenant.Proofs.Template.Uses
import Covenant.Proofs.Artifact.Verdict
import Covenant.Proofs.Artifact.Verified
import Covenant.Proofs.Artifact.Content
import Covenant.Proofs.Artifact.Smooth
import Covenant.Proofs.Artifact.Calls
import Covenant.Proofs.Builtin.Templates
import Covenant.Proofs.Builtin.Constants
import Covenant.Proofs.Code.FunctionNames
import Covenant.Proofs.Compiler.Completeness
import Covenant.Proofs.Compiler.Independence
import Covenant.Proofs.Compiler.LexicalSafety
import Covenant.Proofs.Compiler.Statements
import Covenant.Proofs.Compiler.Provenance
import Covenant.Proofs.Compiler.Inputs
import Covenant.Proofs.Compiler.Runs
import Covenant.Proofs.Compiler.LineStructure
import Covenant.Proofs.Compiler.Constants
import Covenant.Proofs.Compiler.Requirements
import Covenant.Proofs.Vocabulary.Configured
import Covenant.Proofs.Definition.Extended
import Covenant.Proofs.Code.ConstantLines
import Covenant.Proofs.Code.ParameterLines
import Covenant.Proofs.Code.ContractName
import Covenant.Proofs.Text.Safe
import Covenant.Proofs.Artifact.FileNames
import Covenant.Proofs.Template.Tokens
