import Covenant.Proofs.Definition.Acceptance
import Covenant.Proofs.Definition.Report.Law

/-! Every problem of a contract is reported, and nothing else is. A document is accepted when
nothing is reported of its contract, and is answered with the whole report otherwise. -/
namespace Covenant.Definition

open Yaml (Value)
open Rules (Rulebook)
open Report (OfContract is_ofContract)

variable {rules : Rulebook} {vocabulary : Vocabulary} {v : Value}

/-- A report is the answer to a document, unless there is nothing in it. -/
inductive Answers : List Problem → Except (List Problem) Definition → Prop
  | accepted (d : Definition) : Answers [] (.ok d)
  | refused {ps : List Problem} (h : ps ≠ []) : Answers ps (.error ps)

/-- An answer tells the report it was made from. -/
theorem Answers.unique {ps qs : List Problem} {r : Except (List Problem) Definition}
    (hps : Answers ps r) (hqs : Answers qs r) : ps = qs := by
  cases hps with
  | accepted => cases hqs; rfl
  | refused => cases hqs; rfl

theorem Answers.iff_eq {ps qs : List Problem} {r : Except (List Problem) Definition}
    (h : Answers ps r) : qs = ps ↔ Answers qs r := by
  constructor
  · rintro rfl
    exact h
  · exact fun hqs => hqs.unique h

/-- A draft whose form has no problems is a definition. -/
theorem toDefinition_of_problems {w : Value} (hw : w.Bare)
    (h : (Draft.ofContract vocabulary w).problems = []) :
    ∃ d, (Draft.ofContract vocabulary w).value.toDefinition = .ok d := by
  obtain ⟨d, _, hd⟩ := (Draft.ofContract_yields hw).1 ⟨h, rfl⟩
  rw [hd]
  exact ⟨d, Draft.toDefinition_ofDefinition d⟩

/-- The answer to a document is what the form and the law have against its contract. -/
theorem ofValue_answers (hv : v.Bare) {entries : List (Value × Value)}
    (hcontract : v.Gives "contract" (.mapping entries)) :
    Answers ((Draft.ofContract vocabulary (.mapping entries)).problems ++
        (Draft.ofContract vocabulary (.mapping entries)).value.complianceProblems rules)
      (ofValue rules vocabulary v) := by
  obtain ⟨fields, hfields, hmem, -⟩ := hcontract
  have hget : v.get? "contract" = some (.mapping entries) :=
    hv.get?_eq_some_iff.2 ⟨fields, hfields, hmem⟩
  have hw : Value.Bare (.mapping entries) := by
    subst hfields
    exact (hv.of_mem_entries hmem).2
  have hmap : Value.isMapping (.mapping entries) = true := rfl
  simp only [ofValue, Draft.ofValue, hget, hmap, ↓reduceIte, Checked.map]
  split
  · next hnone =>
    obtain ⟨d, hd⟩ := toDefinition_of_problems hw (List.append_eq_nil_iff.1 hnone).1
    rw [hnone, hd]
    exact .accepted d
  · next hsome => exact .refused hsome

/-- A document without tags whose contract is a mapping is answered with the report on that
contract; so is every text that is read as that document. -/
theorem answers_iff_reported (rules : Rulebook) (vocabulary : Vocabulary) {v : Value}
    (sound : v.Sound) (untagged : v.Untagged) {entries : List (Value × Value)}
    (hcontract : v.Gives "contract" (.mapping entries)) (ps : List Problem) :
    (OfContract rules vocabulary (.mapping entries) ps ↔
        Answers ps (ofValue rules vocabulary v)) ∧
      ∀ text, Value.read text = some v →
        (OfContract rules vocabulary (.mapping entries) ps ↔
          Answers ps (read rules vocabulary text)) := by
  have hv : v.Bare := ⟨sound, untagged⟩
  have hw : Value.Bare (.mapping entries) := by
    obtain ⟨fields, rfl, hmem, -⟩ := hcontract
    exact (hv.of_mem_entries hmem).2
  have hvalue : OfContract rules vocabulary (.mapping entries) ps ↔
      Answers ps (ofValue rules vocabulary v) :=
    (is_ofContract hw rules ps).trans (ofValue_answers hv hcontract).iff_eq
  refine ⟨hvalue, ?_⟩
  intro text htext
  rw [read_eq_ofValue htext]
  exact hvalue

/-! A lease with a fault in every part. The second tenant has the name of the first, who is
refused, and the condition is refused for its trigger, but its rent is too high all the same. -/

def spoiledEntries : List (Value × Value) := [
  (.text "type", .text "L"),
  (.text "jurisdiction", .text "u"),
  (.text "parties", .sequence [
    .mapping [(.text "name", .text " A"), (.text "role", .text "tenant"),
      (.text "address", .text "0x1")],
    .bool true,
    .mapping [(.text "name", .text "A "), (.text "role", .text "payee"),
      (.text "verification_required", .text "no")]]),
  (.text "conditions", .sequence [
    .mapping [(.text "trigger", .text "t!"), (.text "action", .text "a"),
      (.text "time_limit", .number (.int 0)),
      (.text "parameters", .mapping [(.text "p", .number (.int 10)), (.text "q", .sequence [])])]]),
  (.text "legal_requirements", .sequence [.text "K!", .number (.int 3), .text "j", .text " j"]),
  (.text "metadata", .mapping [(.text "version", .text " "), (.text "description", .bool false)])]

def spoiled : Value := .mapping [(.text "contract", .mapping spoiledEntries)]

def spoiledProblems : List Problem := [
  .schema "contract.parties[0].role" "unregistered role 'tenant'",
  .schema "contract.parties[0].address"
    "malformed address '0x1': expected 0x followed by 40 hex digits",
  .schema "contract.parties[1]" "expected a mapping",
  .schema "contract.parties[2].name" "duplicate party name 'A'",
  .schema "contract.parties[2].verification_required" "expected a boolean",
  .schema "contract.conditions[0].trigger" "unknown trigger verb 't!'",
  .schema "contract.conditions[0].time_limit"
    "time_limit must be a positive number of days, found 0",
  .schema "contract.conditions[0].parameters.q" "expected a scalar value",
  .schema "contract.legal_requirements[0]"
    "invalid legal requirement id 'K!': expected a lower-case identifier",
  .schema "contract.legal_requirements[1]" "expected a string",
  .schema "contract.legal_requirements[3]" "duplicate legal requirement 'j'",
  .schema "contract.metadata.version" "must not be empty",
  .schema "contract.metadata.description" "expected a string",
  .missingRequirement "k" "u" "l",
  .violation "max_p" "contract.conditions[0].parameters.p" (Double.ofNat 10) (Double.ofNat 9)]

theorem spoiled_reported :
    spoiled.Sound ∧ spoiled.Untagged ∧ spoiled.Gives "contract" (.mapping spoiledEntries) ∧
      ofValue leaseRules leaseVocabulary spoiled = .error spoiledProblems ∧
      OfContract leaseRules leaseVocabulary (.mapping spoiledEntries) spoiledProblems := by
  have sound : spoiled.Sound := by
    simp [spoiled, spoiledEntries, Value.same]
    decide
  have untagged : spoiled.Untagged := by simp [spoiled, spoiledEntries]
  have contract : spoiled.Gives "contract" (.mapping spoiledEntries) :=
    ⟨_, rfl, by simp, by simp⟩
  have refused : ofValue leaseRules leaseVocabulary spoiled = .error spoiledProblems := by
    decide +kernel
  have reported := (answers_iff_reported leaseRules leaseVocabulary sound untagged contract
    spoiledProblems).1
  rw [refused] at reported
  exact ⟨sound, untagged, contract, refused, reported.2 (.refused (by simp [spoiledProblems]))⟩

end Covenant.Definition
