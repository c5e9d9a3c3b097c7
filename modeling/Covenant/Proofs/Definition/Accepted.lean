import Covenant.Definition.Reading
import Covenant.Proofs.Definition.Compliance

/-! What is known of every accepted definition, whatever its document looks like: its pair
is one of identifiers and has a rule set, its verbs are in the vocabulary, and the
requirements it asks for are identifiers, asked for once each, and include the mandated ones. -/
namespace Covenant

open Yaml (Value)
open Rules (Rulebook)

namespace Draft

/-! ### Values of checks -/

theorem requiredWord_value {α : Type} {v : Value} {path key : String} {accept : String → Option α}
    {refusal : String → String} {a : α}
    (h : (requiredWord v path key accept refusal).value = some a) : ∃ raw, accept raw = some a := by
  unfold requiredWord at h
  simp only at h
  split at h
  · cases h
  · next raw _ =>
    split at h
    · next hraw =>
      obtain rfl := Option.some.inj h
      exact ⟨raw, hraw⟩
    · cases h

theorem idField_value {v : Value} {path key id : String}
    (h : (idField v path key).value = some id) : Ident.isIdent id = true := by
  obtain ⟨raw, hraw⟩ := requiredWord_value h
  simp only at hraw
  split at hraw
  · next hid =>
    obtain rfl := Option.some.inj hraw
    exact hid
  · cases hraw

theorem verb_value {accept : String → Bool} {kind : String} {v : Value} {path w : String}
    (h : (verb accept kind v path).value = some w) : accept w = true := by
  obtain ⟨raw, hraw⟩ := requiredWord_value h
  simp only at hraw
  split at hraw
  · next haccept =>
    obtain rfl := Option.some.inj hraw
    exact haccept
  · cases hraw

theorem condition_value {vocabulary : Vocabulary} {v : Value} {path : String} {c : Condition}
    (h : (condition vocabulary v path).value.1 = some c) :
    vocabulary.isTrigger c.trigger = true ∧ vocabulary.isAction c.action = true := by
  unfold condition at h
  split at h
  · obtain ⟨trigger, htrigger, h⟩ := Option.bind_eq_some_iff.1 h
    obtain ⟨action, haction, h⟩ := Option.bind_eq_some_iff.1 h
    obtain rfl := Option.some.inj h
    exact ⟨verb_value htrigger, verb_value haction⟩
  · cases h

theorem conditionList_value {vocabulary : Vocabulary} {v : Value} :
    ∀ c ∈ (conditionList vocabulary v).value.1,
      vocabulary.isTrigger c.trigger = true ∧ vocabulary.isAction c.action = true := by
  intro c hc
  unfold conditionList at hc
  split at hc
  · cases hc
  · next entries _ =>
    obtain ⟨x, hx, hsome⟩ := List.mem_filterMap.1 hc
    obtain ⟨y, hy, rfl⟩ := List.mem_map.1 hx
    obtain ⟨e, _, rfl⟩ := List.mem_map.1 hy
    exact condition_value hsome
  · cases hc

/-- What holds of no requirements and is kept by each new one holds of those that are found: by
induction on the entries. -/
theorem requirementEntries_invariant {P : List String → Prop}
    (step : ∀ found id, P found → Ident.isIdent id = true → id ∉ found → P (found ++ [id]))
    {items : List Value} {found : List String} {i : Nat} (hfound : P found) :
    P (requirementEntries found i items).value := by
  induction items generalizing found i with
  | nil => exact hfound
  | cons v rest ih =>
    unfold requirementEntries
    cases htext : v.asText? with
    | none => exact ih hfound
    | some raw =>
      simp only
      split
      · exact ih hfound
      · next hid =>
        split
        · exact ih hfound
        · next hnew => exact ih (step _ _ hfound (by simpa using hid) (by simpa using hnew))

theorem requirementList_invariant {P : List String → Prop} (hnil : P [])
    (step : ∀ found id, P found → Ident.isIdent id = true → id ∉ found → P (found ++ [id]))
    (v : Value) : P (requirementList v).value := by
  unfold requirementList
  split
  · exact hnil
  · exact requirementEntries_invariant step hnil
  · exact hnil

theorem requirementList_value (v : Value) :
    ∀ id ∈ (requirementList v).value, Ident.isIdent id = true := by
  refine requirementList_invariant (P := fun ids => ∀ id ∈ ids, Ident.isIdent id = true)
    (by simp) (fun found id hfound hid _ => ?_) v
  intro id' hmem
  rcases List.mem_append.1 hmem with hmem | hmem
  · exact hfound id' hmem
  · rwa [List.mem_singleton.1 hmem]

theorem requirementList_nodup (v : Value) : (requirementList v).value.Nodup := by
  refine requirementList_invariant List.nodup_nil (fun found id hfound _ hnew => ?_) v
  refine List.nodup_append.2 ⟨hfound, List.pairwise_singleton _ _, ?_⟩
  rintro id' hid' _ hmem rfl
  exact hnew (List.mem_singleton.1 hmem ▸ hid')

end Draft

namespace Definition

/-! ### Accepted definitions -/

/-- What every accepted definition satisfies. -/
structure Accepted (rules : Rulebook) (vocabulary : Vocabulary) (d : Definition) : Prop where
  contractType : Ident.isIdent d.contractType = true
  jurisdiction : Ident.isIdent d.jurisdiction = true
  triggers : ∀ c ∈ d.conditions, vocabulary.isTrigger c.trigger = true
  actions : ∀ c ∈ d.conditions, vocabulary.isAction c.action = true
  requirements : ∀ id ∈ d.legalRequirements, Ident.isIdent id = true
  distinct : d.legalRequirements.Nodup
  supported : ∃ r, rules.lookup d.jurisdiction d.contractType = some r ∧
    ∀ id ∈ r.legalRequirements, id ∈ d.legalRequirements

theorem lookup_of_complianceProblems {rules : Rulebook} {d : Draft} {j t : String}
    (hj : d.jurisdiction = some j) (ht : d.contractType = some t)
    (h : d.complianceProblems rules = []) :
    ∃ r, rules.lookup j t = some r ∧ ∀ id ∈ r.legalRequirements, id ∈ d.legalRequirements := by
  unfold Draft.complianceProblems at h
  rw [hj, ht] at h
  simp only at h
  split at h
  · cases h
  · split at h
    · cases h
    · next r hr =>
      obtain ⟨hmissing, _⟩ := List.append_eq_nil_iff.1 h
      exact ⟨r, hr, Draft.requirementProblems_eq_nil_iff.1 hmissing⟩

theorem accepted_of_ofValue {rules : Rulebook} {vocabulary : Vocabulary} {v : Value}
    {d : Definition} (h : ofValue rules vocabulary v = .ok d) : d.Accepted rules vocabulary := by
  unfold ofValue at h
  simp only at h
  split at h
  · cases h
  · next draft hdraft =>
    split at h
    · next hproblems =>
      obtain ⟨_, hcompliance⟩ := List.append_eq_nil_iff.1 hproblems
      unfold Draft.toDefinition at h
      split at h
      · next t j ht hj =>
        obtain rfl := Except.ok.inj h
        unfold Draft.ofValue at hdraft
        split at hdraft
        · cases hdraft
        · split at hdraft
          · obtain rfl := Option.some.inj hdraft
            exact {
              contractType := Draft.idField_value ht
              jurisdiction := Draft.idField_value hj
              triggers := fun c hc => (Draft.conditionList_value c hc).1
              actions := fun c hc => (Draft.conditionList_value c hc).2
              requirements := Draft.requirementList_value _
              distinct := Draft.requirementList_nodup _
              supported := lookup_of_complianceProblems hj ht hcompliance }
          · cases hdraft
      · cases h
      · cases h
    · cases h

theorem accepted_of_read {rules : Rulebook} {vocabulary : Vocabulary} {text : String}
    {d : Definition} (h : read rules vocabulary text = .ok d) : d.Accepted rules vocabulary := by
  unfold read at h
  split at h
  · exact accepted_of_ofValue h
  · cases h

end Definition
end Covenant
