import Covenant.Proofs.Definition.Conditions

/-! Compliance. The checks of the law find nothing exactly when the definition requests
what its rule set mandates and keeps within the bounds the rule set names. -/
namespace Covenant.Draft

open Definition
open Rules (Bound Rulebook RuleSet)

/-! ### The names of bounds -/

theorem exists_chars_of_ne_empty {p : String} (h : p ≠ "") : ∃ c cs, p = String.ofList (c :: cs) := by
  cases hp : p.toList with
  | nil => exact absurd (String.toList_eq_nil_iff.1 hp) h
  | cons c cs => exact ⟨c, cs, by rw [← hp, String.ofList_toList]⟩

/-- A name sets the bound that it spells out, and no other. -/
theorem ofConstraint?_eq_some_iff {name : String} {b : Bound} :
    Bound.ofConstraint? name = some b ↔ b.parameter ≠ "" ∧
      name = (match b with
        | .max _ => "max_"
        | .min _ => "min_") ++ b.parameter := by
  constructor
  · intro h
    unfold Bound.ofConstraint? at h
    split at h
    · next c cs hname =>
      obtain rfl := Option.some.inj h
      refine ⟨by simp [Bound.parameter], ?_⟩
      rw [← String.toList_inj, hname]
      simp [Bound.parameter]
    · next c cs hname =>
      obtain rfl := Option.some.inj h
      refine ⟨by simp [Bound.parameter], ?_⟩
      rw [← String.toList_inj, hname]
      simp [Bound.parameter]
    · cases h
  · rintro ⟨hne, rfl⟩
    obtain ⟨c, cs, hp⟩ := exists_chars_of_ne_empty hne
    cases b with
    | max p =>
      obtain rfl : p = String.ofList (c :: cs) := hp
      simp [Bound.ofConstraint?, Bound.parameter]
    | min p =>
      obtain rfl : p = String.ofList (c :: cs) := hp
      simp [Bound.ofConstraint?, Bound.parameter]

theorem withinBound_iff {name : String} {limit : Double} {p : String} {value : ParamValue} :
    WithinBound name limit p value ↔
      ∀ b, Bound.ofConstraint? name = some b → b.parameter = p →
        ∃ x, value.asDouble? = some x ∧ b.admits x limit = true := by
  constructor
  · intro h b hb hp
    cases b with
    | max q =>
      obtain ⟨hne, hname⟩ := ofConstraint?_eq_some_iff.1 hb
      obtain rfl : q = p := hp
      exact (h hne).1 hname
    | min q =>
      obtain ⟨hne, hname⟩ := ofConstraint?_eq_some_iff.1 hb
      obtain rfl : q = p := hp
      exact (h hne).2 hname
  · intro h hne
    exact ⟨fun hname => h (.max p) (ofConstraint?_eq_some_iff.2 ⟨hne, hname⟩) rfl,
      fun hname => h (.min p) (ofConstraint?_eq_some_iff.2 ⟨hne, hname⟩) rfl⟩

/-! ### The checks -/

theorem requirementProblems_eq_nil_iff {r : RuleSet} {requested : List String} :
    requirementProblems r requested = [] ↔ ∀ id ∈ r.legalRequirements, id ∈ requested := by
  simp [requirementProblems]

theorem boundProblem?_eq_none_iff {name : String} {limit : Double} {b : Bound}
    {bag : Nat × Table ParamValue} :
    boundProblem? name limit b bag = none ↔
      ∀ value, bag.2.get? b.parameter = some value →
        ∃ x, value.asDouble? = some x ∧ b.admits x limit = true := by
  unfold boundProblem?
  cases hget : bag.2.get? b.parameter with
  | none => simp
  | some value =>
    cases hx : value.asDouble? with
    | none => simp [hx]
    | some x => cases hb : b.admits x limit <;> simp [hx, hb]

theorem mem_bags {cs : List Condition} {t : Table ParamValue} :
    (∃ i, (i, t) ∈ bags cs) ↔ t.isEmpty = false ∧ ∃ c ∈ cs, c.parameters = t := by
  simp only [bags, List.mem_filter, List.mem_map, Prod.mk.injEq, Bool.not_eq_true']
  constructor
  · rintro ⟨i, ⟨⟨c, k⟩, hc, _, rfl⟩, hne⟩
    exact ⟨hne, c, List.fst_mem_of_mem_zipIdx hc, rfl⟩
  · rintro ⟨hne, c, hc, rfl⟩
    obtain ⟨k, hk, rfl⟩ := List.mem_iff_getElem.1 hc
    exact ⟨k, ⟨(cs[k], k), List.mk_mem_zipIdx_iff_getElem?.2 (List.getElem?_eq_getElem hk), rfl, rfl⟩, hne⟩

/-- A table that answers a look-up is not empty. -/
theorem isEmpty_of_get? {t : Table ParamValue} {p : String} {value : ParamValue}
    (h : t.get? p = some value) : t.isEmpty = false := by
  have hmem := Table.mem_entries.2 h
  cases he : t.isEmpty with
  | false => rfl
  | true =>
    rw [Table.isEmpty, List.isEmpty_iff] at he
    rw [he] at hmem
    cases hmem

theorem constraintProblems_eq_nil_iff {r : RuleSet} {cs : List Condition} :
    constraintProblems r (bags cs) = [] ↔
      ∀ name limit, r.constraint? name = some limit →
        ∀ c ∈ cs, ∀ p value, c.parameters.get? p = some value →
          WithinBound name limit p value := by
  have hentry : ∀ e : String × Double,
      (∀ bound, Bound.ofConstraint? e.1 = some bound →
        (bags cs).filterMap (boundProblem? e.1 e.2 bound) = []) ↔
      ∀ c ∈ cs, ∀ p value, c.parameters.get? p = some value → WithinBound e.1 e.2 p value := by
    intro e
    simp only [withinBound_iff, List.filterMap_eq_nil_iff, boundProblem?_eq_none_iff]
    constructor
    · rintro h c hc _ value hget b hb rfl
      obtain ⟨i, hi⟩ := mem_bags.2 ⟨isEmpty_of_get? hget, c, hc, rfl⟩
      exact h b hb _ hi value hget
    · intro h b hb bag hbag value hget
      obtain ⟨_, c, hc, hparameters⟩ := mem_bags.1 ⟨bag.1, hbag⟩
      exact h c hc _ value (hparameters ▸ hget) b hb rfl
  rw [constraintProblems, List.flatMap_eq_nil_iff]
  constructor
  · intro h name limit hlimit
    refine (hentry (name, limit)).1 fun bound hbound => ?_
    have hnone := h (name, limit) (Table.mem_entries.2 hlimit)
    rwa [hbound] at hnone
  · intro h e he
    have hbounds := (hentry e).2 (h e.1 e.2 (Table.mem_entries.1 he))
    split
    · next bound hbound => exact hbounds bound hbound
    · rfl

/-! ### The law -/

theorem supports_of_lookup {rules : Rulebook} {j t : String} {r : RuleSet}
    (h : rules.lookup j t = some r) : rules.supports j = true := by
  unfold Rulebook.supports Table.contains
  unfold Rulebook.lookup Rulebook.typesOf at h
  cases hj : rules.rules.get? (Ident.normalize j) with
  | some types => rfl
  | none =>
    rw [hj] at h
    cases h

/-- The draft of a definition. -/
def ofDefinition (d : Definition) : Draft :=
  ⟨some d.contractType, some d.jurisdiction, d.parties, d.conditions, bags d.conditions,
    d.legalRequirements, d.metadata⟩

theorem complianceProblems_eq_nil_iff {rules : Rulebook} {d : Definition} :
    (ofDefinition d).complianceProblems rules = [] ↔
      ∃ r, rules.lookup d.jurisdiction d.contractType = some r ∧ Complies r d := by
  unfold complianceProblems
  simp only [ofDefinition]
  cases hlookup : rules.lookup d.jurisdiction d.contractType with
  | none =>
    cases hs : rules.supports d.jurisdiction <;> simp
  | some r =>
    rw [supports_of_lookup hlookup]
    simp only [Bool.not_true, Bool.false_eq_true, ↓reduceIte, List.append_eq_nil_iff,
      requirementProblems_eq_nil_iff, constraintProblems_eq_nil_iff, Option.some.injEq,
      exists_eq_left']
    exact ⟨fun h => ⟨h.1, h.2⟩, fun h => ⟨h.requirements, h.bounds⟩⟩

end Covenant.Draft
