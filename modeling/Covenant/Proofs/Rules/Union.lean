import Mathlib.Data.List.Nodup
import Covenant.Proofs.Additions
import Covenant.Proofs.Ident
import Covenant.Proofs.Rules.Loaded
import Covenant.Proofs.Table.Nested

/-! Rulebooks of several sources. A source comes to a row of rule sets, and loading adds those
of all sources one after the other, each under a pair that must be free. So sources load together
exactly when each loads alone and no pair comes twice, and the rulebook has the rule sets that the
single ones have, whatever the order. -/
namespace Covenant.Rules

/-! ### What a source comes to -/

/-- The rule set of a draft, for a pair. -/
def RuleDraft.ruleSet (jurisdiction contractType : String) (d : RuleDraft) : RuleSet :=
  ⟨jurisdiction, contractType, d.legalRequirements, d.mandatoryClauses, Table.ofList d.timeLimits,
    Table.ofList d.constraints⟩

theorem RuleDraft.toRuleSet_eq_ok_iff {d : RuleDraft} {j t : String} {r : RuleSet} :
    d.toRuleSet j t = .ok r ↔ d.problem? = none ∧ r = d.ruleSet j t := by
  unfold toRuleSet
  cases d.problem? with
  | some _ => simp
  | none => simp [ruleSet, eq_comm]

theorem checkId_eq_ok_iff {what raw id : String} :
    checkId what raw = .ok id ↔
      Ident.isIdent (Ident.normalize raw) = true ∧ id = Ident.normalize raw := by
  unfold checkId
  simp only
  split
  · next h => simp [h, eq_comm]
  · next h => simp [h]

namespace Source

/-- The ids of a source are identifiers once they are normal, and its rule sets have no problems. -/
def Sound (s : Source) : Prop :=
  ∀ e ∈ s, Ident.isIdent (Ident.normalize e.1) = true ∧
    ∀ f ∈ e.2, Ident.isIdent (Ident.normalize f.1) = true ∧ f.2.problem? = none

/-- The pairs that the entries of a source are for. -/
def pairs (s : Source) : List (String × String) :=
  s.flatMap fun e => e.2.map fun f => (Ident.normalize e.1, Ident.normalize f.1)

def ruleSets (s : Source) : List RuleSet :=
  s.flatMap fun e => e.2.map fun f => f.2.ruleSet (Ident.normalize e.1) (Ident.normalize f.1)

theorem map_ruleSets (s : Source) :
    s.ruleSets.map (fun r => (r.jurisdiction, r.contractType)) = s.pairs := by
  simp only [ruleSets, pairs, List.map_flatMap, List.map_map]
  rfl

end Source

/-- What is checked of a rule set when it is loaded, in full. -/
structure RuleSet.Checked (r : RuleSet) : Prop extends r.WellFormed where
  nonempty : r.legalRequirements ≠ []
  clausesDistinct : r.mandatoryClauses.Nodup

theorem RuleDraft.checked {d : RuleDraft} (h : d.problem? = none) (j t : String) :
    (d.ruleSet j t).Checked := by
  have hformed : (d.ruleSet j t).WellFormed := (wellFormed (toRuleSet_eq_ok_iff.2 ⟨h, rfl⟩)).1
  obtain ⟨hnonempty, _, hclauses, _, _⟩ := problem?_eq_none_iff.1 h
  exact ⟨hformed, hnonempty, (idProblem?_eq_none_iff.1 hclauses).2.1⟩

/-- What a sound source comes to has been checked, and its pairs are of identifiers. -/
theorem Source.Sound.mem_ruleSets {s : Source} (hs : s.Sound) {r : RuleSet} (hr : r ∈ s.ruleSets) :
    Ident.isIdent r.jurisdiction = true ∧ Ident.isIdent r.contractType = true ∧ r.Checked := by
  obtain ⟨e, he, hr⟩ := List.mem_flatMap.1 hr
  obtain ⟨f, hf, rfl⟩ := List.mem_map.1 hr
  obtain ⟨hj, hentries⟩ := hs e he
  obtain ⟨ht, hproblem⟩ := hentries f hf
  exact ⟨hj, ht, RuleDraft.checked hproblem _ _⟩

/-! ### Rule sets as additions -/

namespace Rulebook

/-- The rule set that is kept for a pair. -/
def rule? (b : Rulebook) (j t : String) : Option RuleSet := (b.typesOf j).get? t

/-- The rulebook with one more rule set. -/
def put (b : Rulebook) (r : RuleSet) : Rulebook :=
  ⟨b.rules.insertUnder r.jurisdiction r.contractType r⟩

theorem rule?_put (b : Rulebook) (r : RuleSet) (j t : String) :
    (b.put r).rule? j t =
      if r.jurisdiction = j ∧ r.contractType = t then some r else b.rule? j t :=
  Table.get?_under_insertUnder b.rules _ _ j t r

theorem contains_put (b : Rulebook) (r : RuleSet) (j : String) :
    (b.put r).rules.contains j = (decide (r.jurisdiction = j) || b.rules.contains j) :=
  Table.contains_insert b.rules _ j _

theorem add_eq_ok_iff {b b' : Rulebook} {r : RuleSet} :
    b.add r = .ok b' ↔ b.rule? r.jurisdiction r.contractType = none ∧ b' = b.put r := by
  unfold add
  simp only
  rw [rule?, Table.contains]
  cases (b.typesOf r.jurisdiction).get? r.contractType with
  | some _ => simp
  | none =>
    simp only [Option.isSome_none, Bool.false_eq_true, ↓reduceIte, Except.ok.injEq, true_and]
    exact eq_comm

/-- Rule sets as additions to a rulebook. -/
def additions : Additions add where
  Admits b r := b.rule? r.jurisdiction r.contractType = none
  put := put
  Agrees r s := (r.jurisdiction, r.contractType) ≠ (s.jurisdiction, s.contractType)
  add_eq_ok_iff _ _ _ := add_eq_ok_iff
  admits_put b r s _ := by
    rw [rule?_put, ne_eq, Prod.mk.injEq]
    split
    · next h => simp [h]
    · next h => simp [h]
  agrees_symm _ _ := Ne.symm
  put_comm b r s h := by
    have h : ¬(r.jurisdiction = s.jurisdiction ∧ r.contractType = s.contractType) :=
      fun heq => h (Prod.ext heq.1 heq.2)
    simp only [put, Table.insertUnder_comm _ h]

/-! ### Sources as rows of rule sets -/

theorem addTypes_eq_ok_iff {j : String} {entries : List (String × RuleDraft)} {b b' : Rulebook} :
    b.addTypes j entries = .ok b' ↔
      (∀ f ∈ entries, Ident.isIdent (Ident.normalize f.1) = true ∧ f.2.problem? = none) ∧
        (entries.map fun f => f.2.ruleSet j (Ident.normalize f.1)).foldlM add b = .ok b' := by
  induction entries generalizing b with
  | nil => simp [addTypes, pure, Except.pure]
  | cons f rest ih =>
    obtain ⟨raw, draft⟩ := f
    simp only [addTypes, Outcome.bind_eq_ok_iff, checkId_eq_ok_iff, RuleDraft.toRuleSet_eq_ok_iff,
      ih, List.forall_mem_cons, List.map_cons, List.foldlM_cons]
    constructor
    · rintro ⟨_, ⟨ht, rfl⟩, _, ⟨hproblem, rfl⟩, b₁, hadd, hrest, hfold⟩
      exact ⟨⟨⟨ht, hproblem⟩, hrest⟩, b₁, hadd, hfold⟩
    · rintro ⟨⟨⟨ht, hproblem⟩, hrest⟩, b₁, hadd, hfold⟩
      exact ⟨_, ⟨ht, rfl⟩, _, ⟨hproblem, rfl⟩, b₁, hadd, hrest, hfold⟩

theorem addSource_eq_ok_iff {s : Source} {b b' : Rulebook} :
    b.addSource s = .ok b' ↔ s.Sound ∧ s.ruleSets.foldlM add b = .ok b' := by
  induction s generalizing b with
  | nil => simp [addSource, Source.Sound, Source.ruleSets, pure, Except.pure]
  | cons e rest ih =>
    obtain ⟨raw, types⟩ := e
    simp only [addSource, Outcome.bind_eq_ok_iff, checkId_eq_ok_iff, addTypes_eq_ok_iff, ih,
      Source.Sound, List.forall_mem_cons, Source.ruleSets, List.flatMap_cons, List.foldlM_append]
    constructor
    · rintro ⟨_, ⟨hj, rfl⟩, b₁, ⟨htypes, hfold⟩, hrest, hfold'⟩
      exact ⟨⟨⟨hj, htypes⟩, hrest⟩, b₁, hfold, hfold'⟩
    · rintro ⟨⟨⟨hj, htypes⟩, hrest⟩, b₁, hfold, hfold'⟩
      exact ⟨_, ⟨hj, rfl⟩, b₁, ⟨htypes, hfold⟩, hrest, hfold'⟩

theorem foldlM_addSource_eq_ok_iff {sources : List Source} {b b' : Rulebook} :
    sources.foldlM addSource b = .ok b' ↔
      (∀ s ∈ sources, s.Sound) ∧ (sources.flatMap Source.ruleSets).foldlM add b = .ok b' := by
  induction sources generalizing b with
  | nil => simp
  | cons s rest ih =>
    simp only [List.foldlM_cons, Outcome.bind_eq_ok_iff, addSource_eq_ok_iff, ih,
      List.forall_mem_cons, List.flatMap_cons, List.foldlM_append]
    constructor
    · rintro ⟨b₁, ⟨hs, hfold⟩, hrest, hfold'⟩
      exact ⟨⟨hs, hrest⟩, b₁, hfold, hfold'⟩
    · rintro ⟨⟨hs, hrest⟩, b₁, hfold, hfold'⟩
      exact ⟨b₁, ⟨hs, hfold⟩, hrest, hfold'⟩

theorem foldlM_addText_eq {texts : List String} {sources : List Source} (b : Rulebook)
    (h : texts.map Source.read = sources.map some) :
    texts.foldlM addText b = sources.foldlM addSource b := by
  induction texts generalizing sources b with
  | nil =>
    obtain rfl := List.map_eq_nil_iff.1 h.symm
    rfl
  | cons text texts ih =>
    cases sources with
    | nil => cases h
    | cons s sources =>
      obtain ⟨hread, hrest⟩ := List.cons.inj h
      have hfirst : b.addText text = b.addSource s := by
        rw [addText, hread]
      simp only [List.foldlM_cons, hfirst]
      exact congrArg _ (funext fun b₁ => ih b₁ hrest)

/-! ### What a rulebook is made of -/

/-- The rulebook has these rule sets, each under its own pair, and no others. -/
structure MadeOf (b : Rulebook) (rs : List RuleSet) : Prop where
  rules : ∀ j t r, b.rule? j t = some r ↔ r ∈ rs ∧ r.jurisdiction = j ∧ r.contractType = t
  jurisdictions : ∀ j, b.rules.contains j = true ↔ ∃ r ∈ rs, r.jurisdiction = j

theorem madeOf_empty : empty.MadeOf [] := by
  refine ⟨fun j t r => ?_, fun j => ?_⟩
  · simp [rule?, typesOf, empty]
  · simp [empty, Table.contains]

theorem MadeOf.add {b b' : Rulebook} {rs : List RuleSet} {s : RuleSet} (hb : b.MadeOf rs)
    (h : b.add s = .ok b') : b'.MadeOf (rs ++ [s]) := by
  obtain ⟨hfree, rfl⟩ := add_eq_ok_iff.1 h
  refine ⟨fun j t r => ?_, fun j => ?_⟩
  · rw [rule?_put, List.mem_append, List.mem_singleton]
    by_cases hpair : s.jurisdiction = j ∧ s.contractType = t
    · -- the pair was free, so no other rule set is under it
      obtain ⟨rfl, rfl⟩ := hpair
      have hnone :
          ¬(r ∈ rs ∧ r.jurisdiction = s.jurisdiction ∧ r.contractType = s.contractType) := by
        rw [← hb.rules, hfree]
        exact nofun
      rw [if_pos ⟨rfl, rfl⟩, Option.some.injEq]
      constructor
      · rintro rfl
        exact ⟨.inr rfl, rfl, rfl⟩
      · rintro ⟨hmem | rfl, hj, ht⟩
        · exact absurd ⟨hmem, hj, ht⟩ hnone
        · rfl
    · rw [if_neg hpair, hb.rules]
      constructor
      · rintro ⟨hmem, hjt⟩
        exact ⟨.inl hmem, hjt⟩
      · rintro ⟨hmem | rfl, hjt⟩
        · exact ⟨hmem, hjt⟩
        · exact absurd hjt hpair
  · rw [contains_put, Bool.or_eq_true, decide_eq_true_eq, hb.jurisdictions]
    simp only [List.mem_append, List.mem_singleton, or_and_right, exists_or, exists_eq_left,
      or_comm]

theorem MadeOf.foldlM_add {b b' : Rulebook} {rs rs' : List RuleSet} (hb : b.MadeOf rs)
    (h : rs'.foldlM Rulebook.add b = .ok b') : b'.MadeOf (rs ++ rs') := by
  induction rs' generalizing b rs with
  | nil =>
    obtain rfl := Except.ok.inj h
    rwa [List.append_nil]
  | cons s rest ih =>
    rw [List.foldlM_cons] at h
    obtain ⟨b₁, hadd, hrest⟩ := Outcome.bind_eq_ok_iff.1 h
    rw [List.append_cons]
    exact ih (hb.add hadd) hrest

theorem contractTypes_ne_nil_iff {b : Rulebook} {j : String} :
    b.contractTypes j ≠ [] ↔ ∃ t r, b.rule? (Ident.normalize j) t = some r := by
  have hkeys : ∀ t, t ∈ b.contractTypes j ↔ ∃ r, b.rule? (Ident.normalize j) t = some r := by
    intro t
    rw [contractTypes, Table.mem_keys, Table.contains, Option.isSome_iff_exists]
    rfl
  constructor
  · intro h
    obtain ⟨t, ht⟩ := List.exists_mem_of_ne_nil _ h
    exact ⟨t, (hkeys t).1 ht⟩
  · rintro ⟨t, hr⟩
    exact List.ne_nil_of_mem ((hkeys t).2 hr)

/-- A jurisdiction is supported when there is a rule set for it. -/
theorem MadeOf.supports_iff {b : Rulebook} {rs : List RuleSet} (hb : b.MadeOf rs) {j : String} :
    b.supports j = true ↔ ∃ t r, b.rule? (Ident.normalize j) t = some r := by
  rw [supports, hb.jurisdictions]
  constructor
  · rintro ⟨r, hr, hj⟩
    exact ⟨r.contractType, r, (hb.rules _ _ _).2 ⟨hr, hj, rfl⟩⟩
  · rintro ⟨t, r, h⟩
    obtain ⟨hr, hj, _⟩ := (hb.rules _ _ _).1 h
    exact ⟨r, hr, hj⟩

/-! ### Unions -/

/-- The rulebook has the jurisdictions and the rule sets that the parts have, and no two parts
have rule sets for one pair. -/
structure IsUnion (b : Rulebook) (parts : List Rulebook) : Prop where
  rules : ∀ j t r, b.rule? j t = some r ↔ ∃ p ∈ parts, p.rule? j t = some r
  jurisdictions : ∀ j, b.rules.contains j = true ↔ ∃ p ∈ parts, p.rules.contains j = true
  disjoint : parts.Pairwise fun p q => ∀ j t, p.rule? j t = none ∨ q.rule? j t = none

/-- Two rulebooks that know the same jurisdictions and the same rule sets are equal. -/
theorem ext_rules {b b' : Rulebook} (hrules : ∀ j t, b.rule? j t = b'.rule? j t)
    (hjurisdictions : ∀ j, b.rules.contains j = b'.rules.contains j) : b = b' := by
  obtain ⟨rules⟩ := b
  obtain ⟨rules'⟩ := b'
  refine congrArg Rulebook.mk (Table.ext_get? fun j => ?_)
  have hcontains := hjurisdictions j
  have htypes := hrules j
  simp only [Table.contains, rule?, typesOf] at hcontains htypes
  cases hj : rules.get? j with
  | none =>
    rw [hj] at hcontains
    exact (Option.isSome_eq_false_iff.1 hcontains.symm |> Option.isNone_iff_eq_none.1).symm
  | some types =>
    rw [hj] at hcontains htypes
    obtain ⟨types', hj'⟩ := Option.isSome_iff_exists.1 hcontains.symm
    rw [hj'] at htypes ⊢
    exact congrArg some (Table.ext_get? htypes)

/-- There is only one union. -/
theorem IsUnion.unique {b b' : Rulebook} {parts : List Rulebook} (h : b.IsUnion parts)
    (h' : b'.IsUnion parts) : b = b' := by
  refine ext_rules (fun j t => Option.ext fun r => ?_) fun j => ?_
  · rw [h.rules, h'.rules]
  · rw [Bool.eq_iff_iff, h.jurisdictions, h'.jurisdictions]

section Rows

variable {rows : List (List RuleSet)} {parts : List Rulebook}

theorem exists_rule?_iff (hparts : List.Forall₂ (fun rs p => p.MadeOf rs) rows parts)
    {j t : String} {r : RuleSet} : (∃ p ∈ parts, p.rule? j t = some r) ↔
      r ∈ rows.flatten ∧ r.jurisdiction = j ∧ r.contractType = t := by
  induction hparts with
  | nil => simp
  | cons hp _ ih =>
    simp only [List.flatten_cons, List.mem_append, List.exists_mem_cons_iff, hp.rules, ih,
      or_and_right]

theorem exists_contains_iff (hparts : List.Forall₂ (fun rs p => p.MadeOf rs) rows parts)
    {j : String} : (∃ p ∈ parts, p.rules.contains j = true) ↔
      ∃ r ∈ rows.flatten, r.jurisdiction = j := by
  induction hparts with
  | nil => simp
  | cons hp _ ih =>
    simp only [List.flatten_cons, List.mem_append, List.exists_mem_cons_iff, hp.jurisdictions, ih,
      or_and_right, exists_or]

theorem disjoint_of_nodup (hparts : List.Forall₂ (fun rs p => p.MadeOf rs) rows parts)
    (hdistinct : (rows.flatten.map fun r => (r.jurisdiction, r.contractType)).Nodup) :
    parts.Pairwise fun p q => ∀ j t, p.rule? j t = none ∨ q.rule? j t = none := by
  induction hparts with
  | nil => exact .nil
  | @cons row p rows parts hp hrest ih =>
    rw [List.flatten_cons, List.map_append, List.nodup_append] at hdistinct
    obtain ⟨_, htail, hapart⟩ := hdistinct
    refine .cons (fun q hq j t => ?_) (ih htail)
    by_contra hboth
    obtain ⟨hpsome, hqsome⟩ := not_or.1 hboth
    obtain ⟨r, hr⟩ := Option.ne_none_iff_exists'.1 hpsome
    obtain ⟨r', hr'⟩ := Option.ne_none_iff_exists'.1 hqsome
    obtain ⟨hmem, rfl, rfl⟩ := (hp.rules _ _ _).1 hr
    obtain ⟨hmem', hpair⟩ := (exists_rule?_iff hrest).1 ⟨q, hq, hr'⟩
    exact hapart _ (List.mem_map_of_mem hmem) _ (List.mem_map_of_mem hmem')
      (Prod.ext hpair.1.symm hpair.2.symm)

/-- A rulebook made of several rows of rule sets, no pair of which comes twice, is the union of
the rulebooks that are made of one row each. -/
theorem MadeOf.isUnion {b : Rulebook} (hb : b.MadeOf rows.flatten)
    (hparts : List.Forall₂ (fun rs p => p.MadeOf rs) rows parts)
    (hdistinct : (rows.flatten.map fun r => (r.jurisdiction, r.contractType)).Nodup) :
    b.IsUnion parts where
  rules j t r := by rw [hb.rules, exists_rule?_iff hparts]
  jurisdictions j := by rw [hb.jurisdictions, exists_contains_iff hparts]
  disjoint := disjoint_of_nodup hparts hdistinct

end Rows

/-- The rulebook of sources that have been read. -/
def ofSources (sources : List Source) : Except Error Rulebook := sources.foldlM addSource empty

variable {sources : List Source} {b : Rulebook}

theorem ofSources_eq_ok_iff : ofSources sources = .ok b ↔
    (∀ s ∈ sources, s.Sound) ∧ (sources.flatMap Source.ruleSets).foldlM add empty = .ok b :=
  foldlM_addSource_eq_ok_iff

theorem madeOf_ofSources (h : ofSources sources = .ok b) :
    b.MadeOf (sources.flatMap Source.ruleSets) :=
  madeOf_empty.foldlM_add (ofSources_eq_ok_iff.1 h).2

theorem map_flatMap_ruleSets (sources : List Source) :
    (sources.flatMap Source.ruleSets).map (fun r => (r.jurisdiction, r.contractType)) =
      sources.flatMap Source.pairs := by
  simp only [List.map_flatMap, Source.map_ruleSets]

/-- Sources load together when each is sound and no pair comes twice. -/
theorem exists_ofSources_iff : (∃ b, ofSources sources = .ok b) ↔
    (∀ s ∈ sources, s.Sound) ∧ (sources.flatMap Source.pairs).Nodup := by
  simp only [ofSources_eq_ok_iff, exists_and_left, additions.exists_foldlM_iff]
  refine and_congr_right fun _ => ?_
  have hfree : ∀ r ∈ sources.flatMap Source.ruleSets, additions.Admits empty r := fun _ _ => rfl
  rw [← map_flatMap_ruleSets, List.Nodup, List.pairwise_map]
  exact and_iff_right hfree

theorem exists_ofSources_singleton_iff {s : Source} :
    (∃ b, ofSources [s] = .ok b) ↔ s.Sound ∧ s.pairs.Nodup := by
  rw [exists_ofSources_iff, List.forall_mem_singleton, List.flatMap_singleton]

theorem ofSources_perm {sources' : List Source} (hperm : sources.Perm sources')
    (h : ofSources sources = .ok b) : ofSources sources' = .ok b := by
  obtain ⟨hsound, hfold⟩ := ofSources_eq_ok_iff.1 h
  refine ofSources_eq_ok_iff.2 ⟨fun s hs => hsound s (hperm.mem_iff.2 hs), ?_⟩
  exact additions.foldlM_perm (hperm.flatMap_right _) hfold

/-- Of sources that load together each loads alone. -/
theorem exists_parts (h : ofSources sources = .ok b) :
    ∃ parts, List.Forall₂ (fun s p => ofSources [s] = .ok p) sources parts := by
  obtain ⟨hsound, hdistinct⟩ := exists_ofSources_iff.1 ⟨b, h⟩
  have heach : ∀ s ∈ sources, ∃ p, ofSources [s] = .ok p := fun s hs =>
    exists_ofSources_singleton_iff.2 ⟨hsound s hs, (List.nodup_flatMap.1 hdistinct).1 s hs⟩
  clear h hsound hdistinct
  induction sources with
  | nil => exact ⟨[], .nil⟩
  | cons s rest ih =>
    obtain ⟨⟨p, hp⟩, hrest⟩ := List.forall_mem_cons.1 heach
    obtain ⟨parts, hparts⟩ := ih hrest
    exact ⟨p :: parts, .cons hp hparts⟩

/-- The rulebook of several sources is the union of the rulebooks of the single ones. -/
theorem isUnion_ofSources {parts : List Rulebook} (h : ofSources sources = .ok b)
    (hparts : List.Forall₂ (fun s p => ofSources [s] = .ok p) sources parts) : b.IsUnion parts := by
  have hdistinct := (exists_ofSources_iff.1 ⟨b, h⟩).2
  rw [← map_flatMap_ruleSets] at hdistinct
  have hmade : b.MadeOf (sources.map Source.ruleSets).flatten := madeOf_ofSources h
  refine hmade.isUnion ?_ hdistinct
  refine List.forall₂_map_left_iff.2 (hparts.imp fun s p hp => ?_)
  simpa using madeOf_ofSources hp

/-- What is kept in a loaded rulebook is kept under its own pair, and has been checked. -/
theorem checked_of_ofSources (h : ofSources sources = .ok b) {j t : String} {r : RuleSet}
    (hr : b.rule? j t = some r) : Ident.isIdent j = true ∧ Ident.isIdent t = true ∧ r.Checked ∧
      r.jurisdiction = j ∧ r.contractType = t := by
  obtain ⟨hmem, rfl, rfl⟩ := ((madeOf_ofSources h).rules _ _ _).1 hr
  obtain ⟨s, hs, hmem⟩ := List.mem_flatMap.1 hmem
  obtain ⟨hj, ht, hchecked⟩ := ((ofSources_eq_ok_iff.1 h).1 s hs).mem_ruleSets hmem
  exact ⟨hj, ht, hchecked, rfl, rfl⟩

theorem exists_lookup_iff (h : ofSources sources = .ok b) {j : String} :
    (∃ t r, b.lookup j t = some r) ↔ ∃ t r, b.rule? (Ident.normalize j) t = some r := by
  constructor
  · rintro ⟨t, r, hr⟩
    exact ⟨Ident.normalize t, r, hr⟩
  · rintro ⟨t, r, hr⟩
    refine ⟨t, r, ?_⟩
    rwa [lookup, Ident.normalize_of_isIdent (checked_of_ofSources h hr).2.1]

/-- Loading several sources is the disjoint union of loading each. Sources load together exactly
when each of them loads alone and no pair comes twice among their entries; the rulebook is then the
one union of the single rulebooks, whatever the order. Every rule set is kept under its own pair of
identifiers and has been checked, and a jurisdiction is supported exactly when it has contract
types, and exactly when some look-up in it succeeds. Texts load as the sources they are read as. -/
theorem load_union (sources : List Source) :
    ((∃ b, ofSources sources = .ok b) ↔
      (∀ s ∈ sources, ∃ p, ofSources [s] = .ok p) ∧ (sources.flatMap Source.pairs).Nodup) ∧
    (∀ b, ofSources sources = .ok b →
      (∃ parts, List.Forall₂ (fun s p => ofSources [s] = .ok p) sources parts ∧
        ∀ b', b'.IsUnion parts ↔ b' = b) ∧
      (∀ sources' : List Source, sources'.Perm sources → ofSources sources' = .ok b) ∧
      (∀ j t r, b.rule? j t = some r →
        Ident.isIdent j = true ∧ Ident.isIdent t = true ∧ r.Checked ∧
          r.jurisdiction = j ∧ r.contractType = t) ∧
      ∀ j, (b.supports j = true ↔ b.contractTypes j ≠ []) ∧
        (b.supports j = true ↔ ∃ t r, b.lookup j t = some r)) ∧
    ∀ texts, texts.map Source.read = sources.map some → load texts = ofSources sources := by
  refine ⟨?_, fun b h => ⟨?_, fun sources' hperm => ofSources_perm hperm.symm h,
    fun j t r hr => checked_of_ofSources h hr, fun j => ?_⟩, fun texts h => foldlM_addText_eq _ h⟩
  · simp only [exists_ofSources_singleton_iff, exists_ofSources_iff]
    refine and_congr_left fun hdistinct => forall₂_congr fun s hs => ?_
    exact (and_iff_left ((List.nodup_flatMap.1 hdistinct).1 s hs)).symm
  · obtain ⟨parts, hparts⟩ := exists_parts h
    have hunion := isUnion_ofSources h hparts
    refine ⟨parts, hparts, fun b' => ⟨fun hb' => hb'.unique hunion, ?_⟩⟩
    rintro rfl
    exact hunion
  · have hmade := madeOf_ofSources h
    rw [contractTypes_ne_nil_iff, exists_lookup_iff h, hmade.supports_iff]
    exact ⟨.rfl, .rfl⟩

end Rulebook
end Covenant.Rules
