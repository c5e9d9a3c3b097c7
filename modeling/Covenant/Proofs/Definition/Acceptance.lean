import Covenant.Proofs.Definition.Compliance
import Covenant.Proofs.Definition.Metadata
import Covenant.Proofs.Definition.Parties

/-! Acceptance. A definition is read off a document exactly when the document states it:
no other document is accepted, and none is read as anything else than what it states. -/
namespace Covenant

open Yaml (Value)
open Rules (Rulebook)

variable {rules : Rulebook} {vocabulary : Vocabulary} {v : Value}

/-! ### Drafts -/

namespace Draft

open Definition

theorem ofContract_yields (hv : v.Bare) {x : Draft} :
    (ofContract vocabulary v).Yields x ↔
      ∃ d, StatesContract vocabulary v d ∧ x = ofDefinition d := by
  have htype : (idField v "contract" "type").Delivers (v.Field "type" StatesId) :=
    idField_delivers hv
  have hjurisdiction : (idField v "contract" "jurisdiction").Delivers
      (v.Field "jurisdiction" StatesId) := idField_delivers hv
  have hconditions := @conditionList_yields v vocabulary hv
  simp only [ofContract, Checked.Yields, List.append_eq_nil_iff]
  constructor
  · rintro ⟨⟨⟨⟨⟨⟨ht, hj⟩, hp⟩, hc⟩, hr⟩, hm⟩, rfl⟩
    obtain ⟨t, ht, hts⟩ := htype.some_of_problems ht
    obtain ⟨j, hj, hjs⟩ := hjurisdiction.some_of_problems hj
    have hp := (partyList_yields hv).1 ⟨hp, rfl⟩
    obtain ⟨cs, hc, hcs⟩ := hconditions.1 ⟨hc, rfl⟩
    have hr := (requirementList_yields hv).1 ⟨hr, rfl⟩
    have hm := (metadataOf_yields hv).1 ⟨hm, rfl⟩
    refine ⟨⟨t, j, _, cs, _, _⟩, ⟨ht, hj, hp, hc, hr, hm⟩, ?_⟩
    rw [hts, hjs, hcs]
    rfl
  · rintro ⟨d, hd, rfl⟩
    have ht := (htype (some d.contractType)).2 ⟨_, hd.contractType, rfl⟩
    have hj := (hjurisdiction (some d.jurisdiction)).2 ⟨_, hd.jurisdiction, rfl⟩
    have hp := (partyList_yields hv).2 hd.parties
    have hc := hconditions.2 ⟨d.conditions, hd.conditions, rfl⟩
    have hr := (requirementList_yields hv).2 hd.legalRequirements
    have hm := (metadataOf_yields hv).2 hd.metadata
    refine ⟨⟨⟨⟨⟨⟨ht.1, hj.1⟩, hp.1⟩, hc.1⟩, hr.1⟩, hm.1⟩, ?_⟩
    rw [ht.2, hj.2, hp.2, hc.2, hr.2, hm.2]
    rfl

/-- A contract gives its fields, so it is a mapping. -/
theorem isMapping_of_states {w : Value} {d : Definition} (h : StatesContract vocabulary w d) :
    w.isMapping = true := by
  obtain ⟨_, hgives, _⟩ := h.contractType
  exact hgives.isMapping

/-- A contract is never null, so a document states one where its entry does. -/
theorem field_contract_iff (hv : v.Bare) {d : Definition} :
    v.Field "contract" (StatesContract vocabulary) d ↔
      ∃ w, v.get? "contract" = some w ∧ StatesContract vocabulary w d := by
  constructor
  · rintro ⟨w, ⟨entries, hentries, hmem, _⟩, hw⟩
    exact ⟨w, hv.get?_eq_some_iff.2 ⟨entries, hentries, hmem⟩, hw⟩
  · rintro ⟨w, hget, hw⟩
    obtain ⟨entries, hentries, hmem⟩ := hv.get?_eq_some_iff.1 hget
    refine ⟨w, ⟨entries, hentries, hmem, ?_⟩, hw⟩
    rintro rfl
    have hmap := isMapping_of_states hw
    cases hmap

theorem ofValue_yields (hv : v.Bare) {x : Option Draft} :
    (ofValue vocabulary v).Yields x ↔
      ∃ d, v.Field "contract" (StatesContract vocabulary) d ∧ x = some (ofDefinition d) := by
  simp only [field_contract_iff hv]
  unfold ofValue
  cases hget : v.get? "contract" with
  | none => simp
  | some w =>
    simp only [Option.some.injEq, exists_eq_left']
    cases hmap : w.isMapping with
    | false =>
      constructor
      · intro h
        simp at h
      · rintro ⟨d, hd, _⟩
        rw [isMapping_of_states hd] at hmap
        cases hmap
    | true =>
      have hw : w.Bare := by
        obtain ⟨entries, rfl, hmem⟩ := hv.get?_eq_some_iff.1 hget
        exact (hv.of_mem_entries hmem).2
      simp only [↓reduceIte, Checked.map_yields, ofContract_yields hw]
      constructor
      · rintro ⟨_, ⟨d, hd, rfl⟩, rfl⟩
        exact ⟨d, hd, rfl⟩
      · rintro ⟨d, hd, rfl⟩
        exact ⟨_, ⟨d, hd, rfl⟩, rfl⟩

theorem toDefinition_ofDefinition (d : Definition) : (ofDefinition d).toDefinition = .ok d := rfl

end Draft

/-! ### Definitions -/

namespace Definition

theorem ofValue_eq_ok_iff (hv : v.Bare) {d : Definition} :
    ofValue rules vocabulary v = .ok d ↔ StatedBy rules vocabulary d v := by
  have hdraft := @Draft.ofValue_yields vocabulary v hv
  constructor
  · intro h
    unfold ofValue at h
    cases hvalue : (Draft.ofValue vocabulary v).value with
    | none =>
      simp only [hvalue, reduceCtorEq] at h
    | some x =>
      simp only [hvalue] at h
      split at h
      · next hnone =>
        obtain ⟨hproblems, hlaw⟩ := List.append_eq_nil_iff.1 hnone
        obtain ⟨e, hcontract, hx⟩ := hdraft.1 ⟨hproblems, hvalue⟩
        obtain rfl := Option.some.inj hx
        rw [Draft.toDefinition_ofDefinition] at h
        obtain rfl := Except.ok.inj h
        exact ⟨hcontract, Draft.complianceProblems_eq_nil_iff.1 hlaw⟩
      · cases h
  · rintro ⟨hcontract, hlaw⟩
    obtain ⟨hproblems, hvalue⟩ := hdraft.2 ⟨d, hcontract, rfl⟩
    have hlaw := Draft.complianceProblems_eq_nil_iff.2 hlaw
    unfold ofValue
    simp only [hvalue, hproblems, hlaw, List.append_nil]
    exact Draft.toDefinition_ofDefinition d

theorem read_eq_ofValue {text : String} (h : Value.read text = some v) :
    read rules vocabulary text = ofValue rules vocabulary v := by
  simp only [read, h]

/-- A document without tags is accepted as the definition that it states, and only when it
states one; so is every text that is read as that document. -/
theorem accepted_iff_stated (rules : Rulebook) (vocabulary : Vocabulary) {v : Value}
    (sound : v.Sound) (untagged : v.Untagged) (d : Definition) :
    (ofValue rules vocabulary v = .ok d ↔ StatedBy rules vocabulary d v) ∧
      ∀ text, Value.read text = some v →
        (read rules vocabulary text = .ok d ↔ StatedBy rules vocabulary d v) := by
  have hv : v.Bare := ⟨sound, untagged⟩
  refine ⟨ofValue_eq_ok_iff hv, ?_⟩
  intro text htext
  rw [read_eq_ofValue htext]
  exact ofValue_eq_ok_iff hv

/-! A lease that is paid within a week, nine units at most. -/

def lease : Value :=
  .mapping [(.text "contract", .mapping [
    (.text "type", .text "L"),
    (.text "jurisdiction", .text "u "),
    (.text "parties", .sequence [
      .mapping [(.text "name", .text " A"), (.text "role", .text "payer")],
      .mapping [(.text "name", .text "B"), (.text "role", .text "payee"),
        (.text "address", .null), (.text "verification_required", .bool false)]]),
    (.text "conditions", .sequence [
      .mapping [(.text "trigger", .text "T"), (.text "action", .text "a"),
        (.text "time_limit", .number (.int 7)),
        (.text "parameters", .mapping [(.text "p", .number (.int 9))])]]),
    (.text "legal_requirements", .sequence [.text "k"])])]

def leaseRules : Rulebook :=
  ⟨Table.ofList [("u", Table.ofList [("l", ⟨"u", "l", ["k"], [], ∅,
    Table.ofList [("max_p", Double.ofNat 9)]⟩)])]⟩

def leaseVocabulary : Vocabulary := .ofLists ["t"] ["a"] []

def leaseDefinition : Definition :=
  ⟨"l", "u", [⟨"A", ⟨"payer", .payer⟩, none, true⟩, ⟨"B", ⟨"payee", .payee⟩, none, false⟩],
    [⟨"t", "a", some 7, Table.ofList [("p", .int 9)]⟩], ["k"], {}⟩

theorem lease_stated :
    lease.Sound ∧ lease.Untagged ∧
      ofValue leaseRules leaseVocabulary lease = .ok leaseDefinition ∧
      StatedBy leaseRules leaseVocabulary leaseDefinition lease := by
  have sound : lease.Sound := by
    simp [lease, Value.same]
    decide
  have untagged : lease.Untagged := by simp [lease]
  have accepted : ofValue leaseRules leaseVocabulary lease = .ok leaseDefinition := by
    decide +kernel
  have stated := (accepted_iff_stated leaseRules leaseVocabulary sound untagged leaseDefinition).1
  exact ⟨sound, untagged, accepted, stated.1 accepted⟩

end Definition
end Covenant
