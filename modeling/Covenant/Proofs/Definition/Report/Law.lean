import Covenant.Proofs.Definition.Compliance
import Covenant.Proofs.Definition.Report.Entries
import Covenant.Proofs.Definition.Report.Parties

/-! The law is asked about whatever could be recovered: the requirements that some entry of
the list states, and the parameters of every condition by its place, also of one that is
refused. With this every problem of a contract is accounted for. -/
namespace Covenant.Report

open Yaml (Value)
open Rules (Bound Rulebook RuleSet)
open Definition
open Draft (present?_cases indexed conditionsPath requiredWord_problems_eq_nil_iff)

variable {v : Value} {path key : String} {vocabulary : Vocabulary}

/-! ### What is recovered -/

theorem idField_value_iff (hv : v.Bare) {s : String} :
    (Draft.idField v path key).value = some s ↔ v.Field key StatesId s :=
  (Draft.idField_delivers hv).value_iff fun a ha => requiredWord_problems_eq_nil_iff.2 ⟨a, ha⟩

theorem mem_requirementList (hv : v.Bare) {id : String} :
    id ∈ (Draft.requirementList v).value ↔ Requests v id := by
  unfold Draft.requirementList Requests
  rcases present?_cases hv "legal_requirements" with ⟨hp, hl⟩ | ⟨w, hp, hw, hbare⟩
  · rw [hp]
    simp [Checked.ok, hl _]
  · rw [hp]
    have honly : ∀ items, v.Gives "legal_requirements" (.sequence items) ↔ w = .sequence items :=
      fun items => ⟨fun h => hw.unique h hv, fun h => h ▸ hw⟩
    simp only [honly]
    cases w with
    | sequence items =>
      have hstated := stated_requirementEntries (fun u hu => hbare.of_mem_items hu) stated_nil 0
      simpa using hstated id
    | null | number | text | bool | mapping | tagged => simp [Checked.fail]

theorem parameter_value_iff {e : Value × Value} (he : e.1.Bare) {q : String × ParamValue} :
    (Draft.parameter path e).value = some q ↔ Draft.StatesEntry e q := by
  refine (Draft.parameter_delivers he).value_iff fun a ha => ?_
  rcases Draft.parameter_cases he path with ⟨_, hc⟩ | ⟨_, _, _, hc⟩ | ⟨_, _, hc⟩
  · simp [hc, Checked.fail] at ha
  · simp [hc, Checked.fail] at ha
  · rw [hc]
    rfl

/-- The parameters that are recovered are those of the entries that are in order. -/
theorem parameterEntries_get? {entries : List (Value × Value)} (h : Value.Bare (.mapping entries))
    {parameter : String} {value : ParamValue} :
    (Table.ofList ((entries.map fun e => (Draft.parameter path e).value).filterMap id)).get?
        parameter = some value ↔
      ∃ w, (.text parameter, w) ∈ entries ∧ StatesParam w value := by
  rw [List.filterMap_map, Function.id_comp]
  have hbare : ∀ e ∈ entries, e.1.Bare := fun e he => (h.of_mem_entries he).1
  have hmem : ∀ q, q ∈ entries.filterMap (fun e => (Draft.parameter path e).value) ↔
      ∃ e ∈ entries, Draft.StatesEntry e q := by
    intro q
    rw [List.mem_filterMap]
    exact exists_congr fun e => and_congr_right fun he => parameter_value_iff (hbare e he)
  have hnames : ((entries.filterMap fun e => (Draft.parameter path e).value).map (·.1)).Nodup := by
    rw [List.Nodup, List.pairwise_map, List.pairwise_filterMap]
    refine h.distinct.imp_of_mem fun he hf hne q hq q' hq' heq => ?_
    have hname := ((parameter_value_iff (hbare _ he)).1 hq).1
    have hname' := ((parameter_value_iff (hbare _ hf)).1 hq').1
    rw [hname, hname', heq] at hne
    simp [Value.same] at hne
  rw [Table.get?_ofList_eq_some_iff hnames, hmem]
  constructor
  · rintro ⟨⟨k, w⟩, he, hk, hw⟩
    obtain rfl : k = .text parameter := hk
    exact ⟨w, he, hw⟩
  · rintro ⟨w, he, hw⟩
    exact ⟨_, he, rfl, hw⟩

theorem condition_get? (hv : v.Bare) {parameter : String} {value : ParamValue} :
    (Draft.condition vocabulary v path).value.2.get? parameter = some value ↔
      Sets v parameter value := by
  unfold Sets
  cases hmap : v.isMapping with
  | false =>
    simp only [Draft.condition, hmap, Checked.fail]
    constructor
    · intro h
      cases h
    · rintro ⟨_, hgives, _⟩
      rw [hgives.isMapping] at hmap
      cases hmap
  | true =>
    simp only [Draft.condition, hmap, ↓reduceIte, Draft.parametersOf]
    rcases present?_cases hv "parameters" with ⟨hp, hl⟩ | ⟨w, hp, hw, hbare⟩
    · rw [hp]
      constructor
      · intro h
        cases h
      · rintro ⟨_, hgives, _⟩
        exact absurd hgives (hl _)
    · rw [hp]
      have honly : ∀ entries, v.Gives "parameters" (.mapping entries) ↔ w = .mapping entries :=
        fun entries => ⟨fun h => hw.unique h hv, fun h => h ▸ hw⟩
      simp only [honly]
      cases w with
      | mapping entries =>
        simp only [Checked.map, Checked.sequence, List.map_map, Value.mapping.injEq, exists_eq_left']
        exact parameterEntries_get? hbare
      | null | number | text | bool | sequence | tagged =>
        simp only [Checked.fail, reduceCtorEq, false_and, exists_false, iff_false]
        intro h
        cases h

theorem lists_unique (hv : v.Bare) {items items' : List Value} (h : Lists v key items)
    (h' : Lists v key items') : items = items' := by
  rcases h with h | ⟨rfl, h⟩
  · rcases h' with h' | ⟨_, h'⟩
    · exact Value.sequence.inj (h.unique h' hv)
    · exact absurd h (h' _)
  · rcases h' with h' | ⟨rfl, _⟩
    · exact absurd h' (h _)
    · rfl

/-- The parameters of the conditions, by their places. -/
theorem exists_lists (hv : v.Bare) : ∃ items, Lists v "conditions" items ∧ (∀ u ∈ items, u.Bare) ∧
    (Draft.conditionList vocabulary v).value.2 = (items.zipIdx.map fun e =>
      (e.2, (Draft.condition vocabulary e.1 (indexed conditionsPath e.2)).value.2)).filter
        fun p => !p.2.isEmpty := by
  unfold Draft.conditionList
  rcases present?_cases hv "conditions" with ⟨hp, hl⟩ | ⟨w, hp, hw, hbare⟩
  · rw [hp]
    exact ⟨[], .inr ⟨rfl, fun _ => hl _⟩, by simp, rfl⟩
  · rw [hp]
    have hno : (∀ us, w ≠ .sequence us) → Lists v "conditions" [] := fun h =>
      .inr ⟨rfl, fun us hus => h us (hw.unique hus hv)⟩
    cases w with
    | sequence items =>
      refine ⟨items, .inl hw, fun u hu => hbare.of_mem_items hu, ?_⟩
      simp only [Checked.sequence, Checked.map, List.map_map]
      rfl
    | null | number | text | bool | mapping | tagged => exact ⟨[], hno (by simp), by simp, rfl⟩

/-! ### Bounds -/

theorem bounds_iff {constraint parameter : String} : Bounds constraint parameter ↔
    ∃ b, Bound.ofConstraint? constraint = some b ∧ b.parameter = parameter := by
  simp only [Draft.ofConstraint?_eq_some_iff]
  constructor
  · rintro ⟨hne, rfl | rfl⟩
    · exact ⟨.max parameter, ⟨hne, rfl⟩, rfl⟩
    · exact ⟨.min parameter, ⟨hne, rfl⟩, rfl⟩
  · rintro ⟨b, ⟨hne, rfl⟩, rfl⟩
    cases b with
    | max p => exact ⟨hne, .inl rfl⟩
    | min p => exact ⟨hne, .inr rfl⟩

section

variable {constraint : String} {limit : Double} {e : Value × Nat}

theorem is_ofBound_of_silent
    (h : ∀ parameter value, Bounds constraint parameter → ¬Sets e.1 parameter value) :
    Is (OfBound constraint limit e) [] := by
  refine .of_unique (.silent h) ?_
  rintro qs (_ | _ | ⟨hp, hs, _⟩ | ⟨hp, hs, _, _⟩)
  · rfl
  · rfl
  · exact absurd hs (h _ _ hp)
  · exact absurd hs (h _ _ hp)

/-- Where a bounded parameter is set, the report is about that parameter and its value. -/
theorem is_ofBound_of_sets {b : Bound} (hb : Bound.ofConstraint? constraint = some b)
    {value : ParamValue} (hset : ∀ x, Sets e.1 b.parameter x ↔ x = value) :
    Is (OfBound constraint limit e) (match value.asDouble? with
      | some x => if b.admits x limit then [] else
        [.violation constraint (paramField e.2 b.parameter) x limit]
      | none => [.schema (paramField e.2 b.parameter)
        ("expected a number, bounded by constraint '" ++ constraint ++ "'")]) := by
  have hwithin : WithinBound constraint limit b.parameter value ↔
      ∃ x, value.asDouble? = some x ∧ b.admits x limit = true := by
    rw [Draft.withinBound_iff]
    constructor
    · exact fun h => h b hb rfl
    · rintro h b' hb' _
      obtain rfl := Option.some.inj (hb.symm.trans hb')
      exact h
  have hsets : ∀ {p x}, Bounds constraint p → Sets e.1 p x → p = b.parameter ∧ x = value := by
    intro p x hp hs
    obtain ⟨b', hb', rfl⟩ := bounds_iff.1 hp
    obtain rfl := Option.some.inj (hb.symm.trans hb')
    exact ⟨rfl, (hset x).1 hs⟩
  have hp := bounds_iff.2 ⟨b, hb, rfl⟩
  have hs := (hset value).2 rfl
  intro qs
  constructor
  · rintro (hsilent | ⟨hp', hs', h⟩ | ⟨hp', hs', h⟩ | ⟨hp', hs', hx, h⟩)
    · exact absurd hs (hsilent _ _ hp)
    · obtain ⟨rfl, rfl⟩ := hsets hp' hs'
      obtain ⟨x, hx, hadmits⟩ := hwithin.1 h
      simp [hx, hadmits]
    · obtain ⟨rfl, rfl⟩ := hsets hp' hs'
      simp [h]
    · obtain ⟨rfl, rfl⟩ := hsets hp' hs'
      rw [hwithin] at h
      simp only [hx, Option.some.injEq, exists_eq_left'] at h
      simp [hx, h]
  · rintro rfl
    cases hx : value.asDouble? with
    | none => exact .noNumber hp hs hx
    | some x =>
      simp only
      split
      · next hadmits => exact .within hp hs (hwithin.2 ⟨x, hx, hadmits⟩)
      · next hadmits =>
        refine .outside hp hs hx fun h => hadmits ?_
        obtain ⟨x', hx', hadmits'⟩ := hwithin.1 h
        rwa [Option.some.inj (hx.symm.trans hx')]

/-- What a constraint says of the parameters that have been recovered of a condition. -/
theorem is_ofBound {t : Table ParamValue}
    (ht : ∀ parameter value, t.get? parameter = some value ↔ Sets e.1 parameter value) :
    Is (OfBound constraint limit e) (match Bound.ofConstraint? constraint with
      | some b => (Draft.boundProblem? constraint limit b (e.2, t)).toList
      | none => []) := by
  cases hb : Bound.ofConstraint? constraint with
  | none =>
    refine is_ofBound_of_silent fun p _ hp _ => ?_
    obtain ⟨b, hb', _⟩ := bounds_iff.1 hp
    rw [hb] at hb'
    cases hb'
  | some b =>
    simp only [Draft.boundProblem?]
    cases hget : t.get? b.parameter with
    | none =>
      refine is_ofBound_of_silent fun p value hp hs => ?_
      obtain ⟨b', hb', rfl⟩ := bounds_iff.1 hp
      obtain rfl := Option.some.inj (hb.symm.trans hb')
      rw [← ht, hget] at hs
      cases hs
    | some value =>
      have hset : ∀ x, Sets e.1 b.parameter x ↔ x = value := fun x => by
        rw [← ht, hget, Option.some.injEq, eq_comm]
      have hreport := @is_ofBound_of_sets constraint limit e b hb value hset
      cases hx : value.asDouble? with
      | none =>
        rw [hx] at hreport
        simpa only [Option.toList_some, hx, paramField] using hreport
      | some x =>
        rw [hx] at hreport
        cases hadmits : b.admits x limit <;>
          simpa only [hx, hadmits, ↓reduceIte, Bool.false_eq_true, Option.toList_none,
            Option.toList_some, paramField] using hreport

end

/-- Conditions without parameters have no part in what the constraints find. -/
theorem constraintProblems_eq {r : RuleSet} {bags : List (Nat × Table ParamValue)} :
    Draft.constraintProblems r (bags.filter fun p => !p.2.isEmpty) =
      r.constraints.entries.flatMap fun c => bags.flatMap fun bag =>
        match Bound.ofConstraint? c.1 with
        | some b => (Draft.boundProblem? c.1 c.2 b bag).toList
        | none => [] := by
  rw [Draft.constraintProblems]
  refine List.flatMap_congr fun c _ => ?_
  cases Bound.ofConstraint? c.1 with
  | none => simp
  | some b =>
    simp only [List.filterMap_filter]
    rw [← List.filterMap_eq_flatMap_toList]
    refine List.filterMap_congr fun bag _ => ?_
    cases hempty : bag.2.isEmpty with
    | false => rfl
    | true =>
      have hnone : bag.2.get? b.parameter = none := by
        by_contra hget
        obtain ⟨x, hx⟩ := Option.ne_none_iff_exists'.1 hget
        rw [Draft.isEmpty_of_get? hx] at hempty
        cases hempty
      simp [Draft.boundProblem?, hnone]

/-! ### The law -/

theorem is_mandates (hv : v.Bare) (r : RuleSet) :
    Is (Each (OfMandate r v) r.legalRequirements)
      (Draft.requirementProblems r (Draft.requirementList v).value) := by
  have heach : Draft.requirementProblems r (Draft.requirementList v).value =
      r.legalRequirements.flatMap fun id =>
        if id ∈ (Draft.requirementList v).value then []
        else [.missingRequirement id r.jurisdiction r.contractType] := by
    rw [Draft.requirementProblems]
    induction r.legalRequirements with
    | nil => rfl
    | cons id ids ih =>
      by_cases hid : id ∈ (Draft.requirementList v).value
      · simpa [hid] using ih
      · simpa [hid] using ih
  rw [heach]
  refine is_each fun id _ qs => ?_
  by_cases hid : Requests v id
  · rw [if_pos ((mem_requirementList hv).2 hid)]
    constructor
    · rintro (_ | hno)
      · rfl
      · exact absurd hid hno
    · rintro rfl
      exact .requested hid
  · rw [if_neg fun hmem => hid ((mem_requirementList hv).1 hmem)]
    constructor
    · rintro (hyes | _)
      · exact absurd hyes hid
      · rfl
    · rintro rfl
      exact .missing hid

theorem is_constraints {items : List Value} (hitems : ∀ u ∈ items, u.Bare) (r : RuleSet) :
    Is (Each (fun c => Each (OfBound c.1 c.2) items.zipIdx) r.constraints.entries)
      (Draft.constraintProblems r ((items.zipIdx.map fun e =>
        (e.2, (Draft.condition vocabulary e.1 (indexed conditionsPath e.2)).value.2)).filter
          fun p => !p.2.isEmpty)) := by
  rw [constraintProblems_eq]
  refine is_each fun c _ => ?_
  rw [List.flatMap_map]
  exact is_each fun e he => is_ofBound fun _ _ =>
    condition_get? (hitems e.1 (List.fst_mem_of_mem_zipIdx he))

theorem is_ofLaw_of_unknown {rules : Rulebook}
    (h : (∀ t, ¬v.Field "type" StatesId t) ∨ ∀ j, ¬v.Field "jurisdiction" StatesId j) :
    Is (OfLaw rules v) [] := by
  intro qs
  constructor
  · intro hqs
    cases hqs with
    | unknown => rfl
    | noJurisdiction ht hj | noType ht hj | checked ht hj =>
      exact h.elim (fun h => absurd ht (h _)) fun h => absurd hj (h _)
  · rintro rfl
    exact .unknown h

/-- Once the type and the jurisdiction can be told, it depends on what the rulebook has for
them. -/
theorem is_ofLaw_of_known {rules : Rulebook} {t j : String} {items : List Value}
    {ps : RuleSet → List Problem} (hv : v.Bare)
    (ht : ∀ t', v.Field "type" StatesId t' ↔ t' = t)
    (hj : ∀ j', v.Field "jurisdiction" StatesId j' ↔ j' = j)
    (hitems : Lists v "conditions" items)
    (hps : ∀ r, Is (InTurn [Each (OfMandate r v) r.legalRequirements,
      Each (fun c => Each (OfBound c.1 c.2) items.zipIdx) r.constraints.entries]) (ps r)) :
    Is (OfLaw rules v) (if !rules.supports j then [.unsupportedJurisdiction j] else
      match rules.lookup j t with
      | none => [.unsupportedType j t]
      | some r => ps r) := by
  have htype := (ht t).2 rfl
  have hjurisdiction := (hj j).2 rfl
  intro qs
  constructor
  · intro hqs
    cases hqs with
    | unknown h =>
      exact h.elim (fun h => absurd htype (h _)) fun h => absurd hjurisdiction (h _)
    | noJurisdiction ht' hj' h =>
      obtain rfl := (hj _).1 hj'
      simp [h]
    | noType ht' hj' hs h =>
      obtain rfl := (ht _).1 ht'
      obtain rfl := (hj _).1 hj'
      simp [hs, h]
    | checked ht' hj' hr hitems' h =>
      obtain rfl := (ht _).1 ht'
      obtain rfl := (hj _).1 hj'
      obtain rfl := lists_unique hv hitems hitems'
      simp [Draft.supports_of_lookup hr, hr, (hps _ qs).1 h]
  · rintro rfl
    cases hs : rules.supports j with
    | false => exact .noJurisdiction htype hjurisdiction hs
    | true =>
      simp only [Bool.not_true, Bool.false_eq_true, ↓reduceIte]
      cases hr : rules.lookup j t with
      | none => exact .noType htype hjurisdiction hs hr
      | some r => exact .checked htype hjurisdiction hr hitems ((hps r _).2 rfl)

theorem is_ofLaw (hv : v.Bare) (rules : Rulebook) :
    Is (OfLaw rules v) ((Draft.ofContract vocabulary v).value.complianceProblems rules) := by
  have htype := fun t => @idField_value_iff v "contract" "type" hv t
  have hjurisdiction := fun j => @idField_value_iff v "contract" "jurisdiction" hv j
  obtain ⟨items, hitems, hbare, hbags⟩ := @exists_lists v vocabulary hv
  simp only [Draft.complianceProblems, Draft.ofContract]
  cases ht : (Draft.idField v "contract" "type").value with
  | none =>
    have hno : ∀ t, ¬v.Field "type" StatesId t := fun t => by simp [← htype, ht]
    cases (Draft.idField v "contract" "jurisdiction").value <;>
      exact is_ofLaw_of_unknown (.inl hno)
  | some t =>
    cases hj : (Draft.idField v "contract" "jurisdiction").value with
    | none => exact is_ofLaw_of_unknown (.inr fun j => by simp [← hjurisdiction, hj])
    | some j =>
      refine is_ofLaw_of_known hv (fun t' => ?_) (fun j' => ?_) hitems fun r => ?_
      · rw [← htype, ht, Option.some.injEq, eq_comm]
      · rw [← hjurisdiction, hj, Option.some.injEq, eq_comm]
      · rw [hbags]
        exact is_inTurn_cons (is_mandates hv r) (is_inTurn_singleton (is_constraints hbare r))

/-! ### The whole -/

theorem is_ofContract (hv : v.Bare) (rules : Rulebook) :
    Is (OfContract rules vocabulary v) ((Draft.ofContract vocabulary v).problems ++
      (Draft.ofContract vocabulary v).value.complianceProblems rules) := by
  have hform : (Draft.ofContract vocabulary v).problems =
      (Draft.idField v "contract" "type").problems ++
        ((Draft.idField v "contract" "jurisdiction").problems ++
          ((Draft.partyList vocabulary v).problems ++
            ((Draft.conditionList vocabulary v).problems ++
              ((Draft.requirementList v).problems ++ (Draft.metadataOf v).problems)))) := by
    simp [Draft.ofContract]
  rw [hform]
  simp only [List.append_assoc]
  exact is_inTurn_cons (is_idField hv rfl) <| is_inTurn_cons (is_idField hv rfl) <|
    is_inTurn_cons (is_partyList hv) <| is_inTurn_cons (is_conditionList hv) <|
    is_inTurn_cons (is_requirementList hv) <| is_inTurn_cons (is_metadataOf hv) <|
    is_inTurn_singleton (is_ofLaw hv rules)

end Covenant.Report
