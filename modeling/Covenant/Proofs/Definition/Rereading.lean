import Covenant.Proofs.Definition.Compliance

/-! Reading a text again. A reader asks the rules about the draft and about nothing else, and
a draft without problems is the draft of a definition, whatever the document looks like. So a
text that has been accepted is accepted under other rules exactly when its definition complies
with the rule set that they have for it. -/
namespace Covenant

open Yaml (Value)
open Rules (Rulebook)

/-! ### Drafts without problems -/

namespace Draft

variable {v : Value} {path : String} {vocabulary : Vocabulary}

theorem condition_of_problems (h : (condition vocabulary v path).problems = []) :
    ∃ c, (condition vocabulary v path).value = (some c, c.parameters) := by
  unfold condition at h ⊢
  cases hmap : v.isMapping with
  | false => simp [hmap, Checked.fail] at h
  | true =>
    simp only [hmap, ↓reduceIte, List.append_eq_nil_iff] at h ⊢
    obtain ⟨t, ht⟩ := requiredWord_problems_eq_nil_iff.1 h.1.1.1
    obtain ⟨a, ha⟩ := requiredWord_problems_eq_nil_iff.1 h.1.1.2
    exact ⟨⟨t, a, _, _⟩, by rw [verb, verb, ht, ha]; rfl⟩

theorem conditionEntries_of_problems {items : List Value} {i : Nat}
    (h : (Checked.sequence ((items.zipIdx i).map fun e =>
      (condition vocabulary e.1 (indexed conditionsPath e.2)).map fun c =>
        (c.1, (e.2, c.2)))).problems = []) :
    ∃ cs : List Condition, (Checked.sequence ((items.zipIdx i).map fun e =>
      (condition vocabulary e.1 (indexed conditionsPath e.2)).map fun c =>
        (c.1, (e.2, c.2)))).value = (cs.zipIdx i).map placed := by
  induction items generalizing i with
  | nil => exact ⟨[], rfl⟩
  | cons w items ih =>
    rw [List.zipIdx_cons, List.map_cons] at h ⊢
    obtain ⟨hfirst, hrest⟩ := List.append_eq_nil_iff.1 h
    obtain ⟨c, hc⟩ := condition_of_problems hfirst
    obtain ⟨cs, hcs⟩ := ih hrest
    refine ⟨c :: cs, ?_⟩
    rw [List.zipIdx_cons, List.map_cons, ← hcs]
    exact congrArg (fun y => (y.1, (i, y.2)) :: _) hc

/-- Without problems, the parameters that are held against the law are those of the conditions. -/
theorem conditionList_of_problems (h : (conditionList vocabulary v).problems = []) :
    (conditionList vocabulary v).value.2 = bags (conditionList vocabulary v).value.1 := by
  unfold conditionList at h ⊢
  split at h
  · simp [Checked.missing] at h
  · obtain ⟨_, hentries⟩ := List.append_eq_nil_iff.1 h
    obtain ⟨cs, hcs⟩ := conditionEntries_of_problems hentries
    simp only [hcs, filterMap_placed, bags_placed]
  · simp [Checked.fail] at h

theorem ofValue_parameters {x : Draft} (h : (ofValue vocabulary v).Yields (some x)) :
    x.parameters = bags x.conditions := by
  obtain ⟨hproblems, hvalue⟩ := h
  unfold ofValue at hproblems hvalue
  cases hget : v.get? "contract" with
  | none =>
    rw [hget] at hvalue
    cases hvalue
  | some w =>
    cases hmap : w.isMapping with
    | false =>
      simp [hget, hmap, Checked.fail] at hvalue
    | true =>
      simp only [hget, hmap, ↓reduceIte, Checked.map, Option.some.injEq] at hproblems hvalue
      subst hvalue
      simp only [ofContract, List.append_eq_nil_iff] at hproblems
      exact conditionList_of_problems hproblems.1.1.2

theorem toDefinition_eq_ok_iff {x : Draft} {d : Definition} (hx : x.parameters = bags x.conditions) :
    x.toDefinition = .ok d ↔ x = ofDefinition d := by
  constructor
  · intro h
    unfold toDefinition at h
    split at h
    · next t j ht hj =>
      obtain rfl := Except.ok.inj h
      rw [ofDefinition, ← ht, ← hj, ← hx]
    · cases h
    · cases h
  · rintro rfl
    rfl

end Draft

/-! ### Other rules -/

namespace Definition

open Draft (ofDefinition)

variable {rules : Rulebook} {vocabulary : Vocabulary} {d : Definition}

/-- A definition is accepted when the draft comes to it and the law has nothing against it. -/
theorem ofValue_eq_ok_iff_yields {v : Value} : ofValue rules vocabulary v = .ok d ↔
    (Draft.ofValue vocabulary v).Yields (some (ofDefinition d)) ∧
      ∃ r, rules.lookup d.jurisdiction d.contractType = some r ∧ Complies r d := by
  rw [← Draft.complianceProblems_eq_nil_iff]
  constructor
  · intro h
    unfold ofValue at h
    simp only at h
    split at h
    · cases h
    · next x hx =>
      split at h
      · next hnone =>
        obtain ⟨hproblems, hlaw⟩ := List.append_eq_nil_iff.1 hnone
        have hparameters := Draft.ofValue_parameters ⟨hproblems, hx⟩
        obtain rfl := (Draft.toDefinition_eq_ok_iff hparameters).1 h
        exact ⟨⟨hproblems, hx⟩, hlaw⟩
      · cases h
  · rintro ⟨⟨hproblems, hvalue⟩, hlaw⟩
    unfold ofValue
    simp only [hvalue, hproblems, hlaw, List.append_nil]
    rfl

/-- A text that has been accepted is accepted under other rules exactly when its definition
complies with the rule set that they have for it. -/
theorem read_again_iff {text : String} (h : read rules vocabulary text = .ok d)
    (rules' : Rulebook) : read rules' vocabulary text = .ok d ↔
      ∃ r, rules'.lookup d.jurisdiction d.contractType = some r ∧ Complies r d := by
  unfold read at h ⊢
  split at h
  · rw [ofValue_eq_ok_iff_yields] at h ⊢
    exact and_iff_right h.1
  · cases h

/-- What has been accepted complies with its rule set. -/
theorem complies_of_read {text : String} (h : read rules vocabulary text = .ok d) :
    ∃ r, rules.lookup d.jurisdiction d.contractType = some r ∧ Complies r d :=
  (read_again_iff h rules).1 h

end Definition
end Covenant
