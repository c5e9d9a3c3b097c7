import Covenant.Proofs.Definition.Fields
import Covenant.Table.Lookup

/-! The condition list. Its check yields conditions exactly when the document states them,
and with them the parameters of every condition that has any, by its place. -/
namespace Covenant.Draft

open Yaml (Value)
open Definition

variable {v : Value} {path : String} {vocabulary : Vocabulary}

/-! ### Time limits -/

theorem statesDays_int {n : Int} {x : Option Nat} (hv : Value.Bare (.number (.int n))) :
    StatesDays (.number (.int n)) x ↔ 0 < n ∧ x = some n.toNat := by
  constructor
  · rintro ⟨m, hm, hpos, _, rfl⟩
    cases hm
    exact ⟨by omega, rfl⟩
  · rintro ⟨hpos, rfl⟩
    obtain ⟨m, rfl⟩ := Int.eq_ofNat_of_zero_le (show 0 ≤ n by omega)
    have hbound : (m : Int) < Word.count 64 := by
      have holds := Value.sound_int_iff.1 hv.sound
      rw [Word.holds, Bool.and_eq_true, decide_eq_true_eq, decide_eq_true_eq] at holds
      exact holds.2
    exact ⟨m, rfl, by omega, by omega, rfl⟩

theorem timeLimit_yields (hv : v.Bare) {x : Option Nat} :
    (timeLimit v path).Yields x ↔ v.FieldOr "time_limit" none StatesDays x := by
  unfold timeLimit
  rcases present?_cases hv "time_limit" with ⟨hp, hl⟩ | ⟨w, hp, hw, hbare⟩
  · rw [hp, fieldOr_of_lacks hl]
    simp [eq_comm]
  · rw [hp, fieldOr_of_gives hv hw]
    cases w with
    | number n => cases n with
      | int n =>
        rw [statesDays_int hbare]
        by_cases hpos : 0 < n
        · simp [hpos, eq_comm]
        · simp [hpos]
      | double d => simp [StatesDays]
    | _ => simp [StatesDays]

/-! ### Parameters -/

theorem paramValue?_eq_some_iff {w : Value} {p : ParamValue} :
    paramValue? w = some p ↔ StatesParam w p := by
  constructor
  · intro h
    cases w with
    | bool b =>
      cases h
      exact .bool b
    | text s =>
      cases h
      exact .text s
    | number n => cases n with
      | double d =>
        cases h
        exact .double d
      | int n =>
        by_cases hn : n < (Word.count 63 : Int)
        · simp only [paramValue?, Yaml.Number.toInt?, hn, ↓reduceIte, Option.some.injEq] at h
          subst h
          exact .int hn
        · simp only [paramValue?, Yaml.Number.toInt?, hn, ↓reduceIte, Option.some.injEq] at h
          subst h
          exact .wide (by omega)
    | _ => cases h
  · intro h
    cases h with
    | bool | double | text => rfl
    | int hn => simp only [paramValue?, Yaml.Number.toInt?, hn, ↓reduceIte]
    | wide hn =>
      simp only [paramValue?, Yaml.Number.toInt?, Int.not_lt.2 hn, ↓reduceIte,
        Yaml.Number.toDouble]

/-- An entry of a parameter mapping, and the pair it states. -/
def StatesEntry (e : Value × Value) (q : String × ParamValue) : Prop :=
  e.1 = .text q.1 ∧ StatesParam e.2 q.2

theorem statesEntry_unique {e : Value × Value} {q q' : String × ParamValue}
    (h : StatesEntry e q) (h' : StatesEntry e q') : q = q' := by
  refine Prod.ext (Value.text.inj (h.1.symm.trans h'.1)) ?_
  have hvalue := paramValue?_eq_some_iff.2 h.2
  rw [paramValue?_eq_some_iff.2 h'.2] at hvalue
  exact (Option.some.inj hvalue).symm

/-- An entry of a parameter mapping is not named, or has no value, or is in order. -/
theorem parameter_cases {e : Value × Value} (he : e.1.Bare) (path : String) :
    ((∀ name, e.1 ≠ .text name) ∧
      parameter path e = .fail path "parameter names must be strings" none) ∨
    (∃ name, e.1 = .text name ∧ (∀ p, ¬StatesParam e.2 p) ∧
      parameter path e = .fail (path ++ "." ++ name) "expected a scalar value" none) ∨
    ∃ q, StatesEntry e q ∧ parameter path e = .ok (some q) := by
  unfold parameter
  cases hname : e.1.asText? with
  | none =>
    refine .inl ⟨fun name hk => ?_, rfl⟩
    rw [he.asText?_eq_some_iff.2 hk] at hname
    cases hname
  | some name =>
    have hkey := he.asText?_eq_some_iff.1 hname
    cases hvalue : paramValue? e.2 with
    | none =>
      refine .inr (.inl ⟨name, hkey, fun p hp => ?_, rfl⟩)
      rw [paramValue?_eq_some_iff.2 hp] at hvalue
      cases hvalue
    | some p => exact .inr (.inr ⟨(name, p), ⟨hkey, paramValue?_eq_some_iff.1 hvalue⟩, rfl⟩)

theorem parameter_delivers {e : Value × Value} (he : e.1.Bare) :
    (parameter path e).Delivers (StatesEntry e) := by
  rcases parameter_cases he path with ⟨hno, hc⟩ | ⟨name, _, hno, hc⟩ | ⟨q, hq, hc⟩
  · exact .of_problems (by simp [hc, Checked.fail]) fun q hq => hno q.1 hq.1
  · exact .of_problems (by simp [hc, Checked.fail]) fun q hq => hno q.2 hq.2
  · rw [hc]
    refine .of_ok fun q' => ⟨statesEntry_unique hq, ?_⟩
    rintro rfl
    exact hq

/-- The names of a parameter mapping differ, since its keys do. -/
theorem names_nodup {entries : List (Value × Value)} {qs : List (String × ParamValue)}
    (h : List.Forall₂ StatesEntry entries qs)
    (distinct : entries.Pairwise fun e f => e.1.same f.1 = false) : (qs.map (·.1)).Nodup := by
  induction h with
  | nil => exact List.nodup_nil
  | @cons e q entries qs he hrest ih =>
    obtain ⟨hd, hdrest⟩ := List.pairwise_cons.1 distinct
    rw [List.map_cons, List.nodup_cons]
    refine ⟨?_, ih hdrest⟩
    intro hmem
    obtain ⟨r, hr, heq⟩ := List.mem_map.1 hmem
    obtain ⟨f, hf, hfr⟩ := Checked.mem_left_of_forall₂ hrest hr
    have hsame := hd f hf
    rw [he.1, hfr.1, heq] at hsame
    simp [Value.same] at hsame

/-- The table of the pairs has just the entries of the mapping. -/
theorem get?_ofList_entries {entries : List (Value × Value)} {qs : List (String × ParamValue)}
    (hqs : List.Forall₂ StatesEntry entries qs)
    (distinct : entries.Pairwise fun e f => e.1.same f.1 = false) {name : String} {p : ParamValue} :
    (Table.ofList qs).get? name = some p ↔ ∃ w, (.text name, w) ∈ entries ∧ StatesParam w p := by
  rw [Table.get?_ofList_eq_some_iff (names_nodup hqs distinct)]
  constructor
  · intro hmem
    obtain ⟨⟨k, w⟩, he, hk, hw⟩ := Checked.mem_left_of_forall₂ hqs hmem
    obtain rfl : k = .text name := hk
    exact ⟨w, he, hw⟩
  · rintro ⟨w, he, hw⟩
    obtain ⟨q, hq, hstates⟩ := Checked.mem_right_of_forall₂ hqs he
    obtain rfl := statesEntry_unique (q := (name, p)) ⟨rfl, hw⟩ hstates
    exact hq

theorem statesParams_mapping {entries : List (Value × Value)}
    (distinct : entries.Pairwise fun e f => e.1.same f.1 = false) {t : Table ParamValue} :
    StatesParams (.mapping entries) t ↔
      ∃ qs, List.Forall₂ StatesEntry entries qs ∧ Table.ofList qs = t := by
  constructor
  · rintro ⟨_, heq, hall, ht⟩
    cases heq
    obtain ⟨qs, hqs⟩ : ∃ qs, List.Forall₂ StatesEntry entries qs := by
      refine Checked.exists_forall₂ fun e he => ?_
      obtain ⟨name, p, hname, hp⟩ := hall e he
      exact ⟨(name, p), hname, hp⟩
    refine ⟨qs, hqs, Table.ext_get? fun name => Option.ext fun p => ?_⟩
    rw [get?_ofList_entries hqs distinct, ht]
  · rintro ⟨qs, hqs, rfl⟩
    refine ⟨entries, rfl, ?_, fun _ _ => get?_ofList_entries hqs distinct⟩
    intro e he
    obtain ⟨q, _, hq⟩ := Checked.mem_right_of_forall₂ hqs he
    exact ⟨q.1, q.2, hq⟩

theorem parametersOf_yields (hv : v.Bare) {t : Table ParamValue} :
    (parametersOf v path).Yields t ↔ v.FieldOr "parameters" ∅ StatesParams t := by
  unfold parametersOf
  rcases present?_cases hv "parameters" with ⟨hp, hl⟩ | ⟨w, hp, hw, hbare⟩
  · rw [hp, fieldOr_of_lacks hl]
    simp [eq_comm]
  · rw [hp, fieldOr_of_gives hv hw]
    cases w with
    | mapping entries =>
      have hentries := @Checked.sequence_delivers _ _ entries
        (parameter (path ++ ".parameters")) StatesEntry
        (fun e he => parameter_delivers (hbare.of_mem_entries he).1)
      rw [statesParams_mapping hbare.distinct, Checked.map_yields]
      constructor
      · rintro ⟨xs, hxs, rfl⟩
        obtain ⟨qs, hqs, rfl⟩ := hentries.1 hxs
        refine ⟨qs, hqs, ?_⟩
        rw [List.filterMap_map, Function.id_comp, List.filterMap_some]
      · rintro ⟨qs, hqs, rfl⟩
        refine ⟨qs.map some, hentries.2 ⟨qs, hqs, rfl⟩, ?_⟩
        rw [List.filterMap_map, Function.id_comp, List.filterMap_some]
    | _ => simp [StatesParams]

/-! ### Entries -/

theorem condition_yields (hv : v.Bare) {x : Option Condition × Table ParamValue} :
    (condition vocabulary v path).Yields x ↔
      ∃ c, StatesCondition vocabulary v c ∧ x = (some c, c.parameters) := by
  have htrigger := @verb_delivers v path "trigger" hv vocabulary.isTrigger
  have haction := @verb_delivers v path "action" hv vocabulary.isAction
  cases hmap : v.isMapping with
  | false =>
    simp only [condition, hmap]
    constructor
    · intro h
      simp at h
    · rintro ⟨c, hc, _⟩
      obtain ⟨w, hw, _⟩ := hc.trigger
      rw [hw.isMapping] at hmap
      cases hmap
  | true =>
    simp only [condition, hmap, ↓reduceIte, Checked.Yields, List.append_eq_nil_iff]
    constructor
    · rintro ⟨⟨⟨⟨ht, ha⟩, hl⟩, hp⟩, rfl⟩
      obtain ⟨t, ht, hts⟩ := htrigger.some_of_problems ht
      obtain ⟨a, ha, has⟩ := haction.some_of_problems ha
      have hl := (timeLimit_yields hv).1 ⟨hl, rfl⟩
      have hp := (parametersOf_yields hv).1 ⟨hp, rfl⟩
      refine ⟨⟨t, a, _, _⟩, ⟨ht, ha, hl, hp⟩, ?_⟩
      rw [hts, has]
      rfl
    · rintro ⟨c, hc, rfl⟩
      have ht := (htrigger (some c.trigger)).2 ⟨c.trigger, hc.trigger, rfl⟩
      have ha := (haction (some c.action)).2 ⟨c.action, hc.action, rfl⟩
      have hl := (@timeLimit_yields v path hv _).2 hc.timeLimit
      have hp := (@parametersOf_yields v path hv _).2 hc.parameters
      refine ⟨⟨⟨⟨ht.1, ha.1⟩, hl.1⟩, hp.1⟩, ?_⟩
      rw [ht.2, ha.2, hl.2, hp.2]
      rfl

/-- What the check of a condition at its place comes to. -/
def placed (c : Condition × Nat) : Option Condition × (Nat × Table ParamValue) :=
  (some c.1, (c.2, c.1.parameters))

theorem conditionEntries_yields {items : List Value} (hv : ∀ w ∈ items, w.Bare) {i : Nat}
    {xs : List (Option Condition × (Nat × Table ParamValue))} :
    (Checked.sequence ((items.zipIdx i).map fun e =>
      (condition vocabulary e.1 (indexed conditionsPath e.2)).map fun c =>
        (c.1, (e.2, c.2)))).Yields xs ↔
      ∃ cs, List.Forall₂ (StatesCondition vocabulary) items cs ∧ xs = (cs.zipIdx i).map placed := by
  rw [Checked.sequence_yields]
  induction items generalizing i xs with
  | nil => simp
  | cons w items ih =>
    have hw := hv w List.mem_cons_self
    have hrest := fun u hu => hv u (List.mem_cons_of_mem _ hu)
    rw [List.zipIdx_cons, List.map_cons, List.forall₂_cons_left_iff]
    constructor
    · rintro ⟨x, xs', hx, hxs, rfl⟩
      obtain ⟨y, hy, rfl⟩ := Checked.map_yields.1 hx
      obtain ⟨c, hc, rfl⟩ := (condition_yields hw).1 hy
      obtain ⟨cs, hcs, rfl⟩ := (ih hrest).1 hxs
      exact ⟨c :: cs, .cons hc hcs, rfl⟩
    · rintro ⟨cs, hcs, rfl⟩
      obtain ⟨c, cs', hc, hcs', rfl⟩ := List.forall₂_cons_left_iff.1 hcs
      refine ⟨placed (c, i), (cs'.zipIdx (i + 1)).map placed, ?_, (ih hrest).2 ⟨cs', hcs', rfl⟩, rfl⟩
      exact Checked.map_yields.2 ⟨_, (condition_yields hw).2 ⟨c, hc, rfl⟩, rfl⟩

/-! ### The list -/

/-- The parameters that are held against the law: those of every condition with any, by its
place. -/
def bags (cs : List Condition) : List (Nat × Table ParamValue) :=
  (cs.zipIdx.map fun c => (c.2, c.1.parameters)).filter fun p => !p.2.isEmpty

theorem filterMap_placed (cs : List Condition) (i : Nat) :
    ((cs.zipIdx i).map placed).filterMap (·.1) = cs := by
  induction cs generalizing i with
  | nil => rfl
  | cons c cs ih =>
    rw [List.zipIdx_cons, List.map_cons, List.filterMap_cons, ih]
    rfl

theorem bags_placed (cs : List Condition) :
    ((cs.zipIdx.map placed).map (·.2)).filter (fun p => !p.2.isEmpty) = bags cs := by
  rw [List.map_map]
  rfl

theorem conditionList_yields (hv : v.Bare)
    {x : List Condition × List (Nat × Table ParamValue)} :
    (conditionList vocabulary v).Yields x ↔
      ∃ cs, v.Field "conditions" (StatesConditions vocabulary) cs ∧ x = (cs, bags cs) := by
  unfold conditionList
  rcases present?_cases hv "conditions" with ⟨hp, hl⟩ | ⟨w, hp, hw, hbare⟩
  · rw [hp]
    simp [not_field_of_lacks hl]
  · rw [hp]
    simp only [field_of_gives hv hw]
    cases w with
    | sequence items =>
      have hentries := @conditionEntries_yields vocabulary items
        (fun u hu => hbare.of_mem_items hu) 0
      simp only [Checked.Yields, List.append_eq_nil_iff, StatesConditions,
        Value.sequence.injEq, exists_eq_left']
      constructor
      · rintro ⟨⟨hsize, hp⟩, rfl⟩
        obtain ⟨cs, hcs, hvalue⟩ := hentries.1 ⟨hp, rfl⟩
        refine ⟨cs, ⟨?_, hcs⟩, ?_⟩
        · rintro rfl
          simp at hsize
        · rw [hvalue, filterMap_placed, bags_placed]
      · rintro ⟨cs, ⟨hne, hcs⟩, rfl⟩
        obtain ⟨hp, hvalue⟩ := hentries.2 ⟨cs, hcs, rfl⟩
        refine ⟨⟨?_, hp⟩, ?_⟩
        · simp [hne]
        · rw [hvalue, filterMap_placed, bags_placed]
    | _ => simp [StatesConditions]

end Covenant.Draft
