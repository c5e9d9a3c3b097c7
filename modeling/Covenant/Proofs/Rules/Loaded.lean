import Covenant.Proofs.Additions
import Covenant.Rules.Rulebook
import Covenant.Table.Lookup

/-! Loaded rulebooks. Whatever the sources, every rule set is kept under its own pair, and
its names are identifiers: adding a rule set that has been checked keeps it so. -/
namespace Covenant.Rules

/-! ### Checks of names -/

theorem idProblem?_eq_none_iff {what : String} {ids seen : List String} :
    idProblem? what seen ids = none ↔
      (∀ id ∈ ids, Ident.isIdent id = true) ∧ ids.Nodup ∧ ∀ id ∈ ids, id ∉ seen := by
  induction ids generalizing seen with
  | nil => simp [idProblem?]
  | cons id rest ih =>
    rw [idProblem?, nodup_cons_new_iff, List.forall_mem_cons]
    cases hid : Ident.isIdent id with
    | false => simp
    | true =>
      by_cases hseen : id ∈ seen
      · simp [hseen]
      · have hcontains : seen.contains id = false := by simpa using hseen
        simp only [Bool.not_true, Bool.false_eq_true, ↓reduceIte, hcontains, ih, hseen,
          not_false_eq_true, true_and]

theorem entryProblem?_eq_none {α : Type} {what : String} {refuse : α → Option String}
    {seen : List String} {es : List (String × α)} (h : entryProblem? what refuse seen es = none) :
    ∀ e ∈ es, Ident.isIdent e.1 = true ∧ refuse e.2 = none := by
  induction es generalizing seen with
  | nil => simp
  | cons e rest ih =>
    obtain ⟨name, a⟩ := e
    rw [entryProblem?] at h
    split at h
    · cases h
    · next hid =>
      split at h
      · cases h
      · next hrefuse =>
        split at h
        · cases h
        · intro e he
          rcases List.mem_cons.1 he with rfl | he
          · exact ⟨by simpa using hid, hrefuse⟩
          · exact ih h e he

/-! ### Rule sets -/

/-- What is checked of a rule set when it is loaded. -/
structure RuleSet.WellFormed (r : RuleSet) : Prop where
  requirements : ∀ id ∈ r.legalRequirements, Ident.isIdent id = true
  distinct : r.legalRequirements.Nodup
  clauses : ∀ id ∈ r.mandatoryClauses, Ident.isIdent id = true
  timeLimits : ∀ e ∈ r.timeLimits.entries, Ident.isIdent e.1 = true ∧ 0 < e.2
  constraints : ∀ e ∈ r.constraints.entries, Ident.isIdent e.1 = true ∧ e.2.isFinite = true

theorem RuleDraft.problem?_eq_none_iff {d : RuleDraft} : d.problem? = none ↔
    d.legalRequirements ≠ [] ∧ idProblem? "legal requirement" [] d.legalRequirements = none ∧
      idProblem? "mandatory clause" [] d.mandatoryClauses = none ∧
      entryProblem? "time limit" refuseDays [] d.timeLimits = none ∧
      entryProblem? "constraint" refuseLimit [] d.constraints = none := by
  unfold problem?
  split
  · next hempty => simp [List.isEmpty_iff.1 hempty]
  · next hempty =>
    rw [List.isEmpty_iff] at hempty
    simp only [Option.or_eq_none_iff, ne_eq, hempty, not_false_eq_true, true_and]

theorem RuleDraft.wellFormed {d : RuleDraft} {jurisdiction contractType : String} {r : RuleSet}
    (h : d.toRuleSet jurisdiction contractType = .ok r) :
    r.WellFormed ∧ r.jurisdiction = jurisdiction ∧ r.contractType = contractType := by
  unfold toRuleSet at h
  split at h
  · cases h
  · next hproblem =>
    obtain rfl := Except.ok.inj h
    obtain ⟨_, hids, hclauses, hlimits, hconstraints⟩ := problem?_eq_none_iff.1 hproblem
    obtain ⟨hids, hnodup, _⟩ := idProblem?_eq_none_iff.1 hids
    refine ⟨⟨hids, hnodup, (idProblem?_eq_none_iff.1 hclauses).1, ?_, ?_⟩, rfl, rfl⟩
    · intro e he
      have hentry := entryProblem?_eq_none hlimits e (Table.mem_of_mem_ofList he)
      refine ⟨hentry.1, Nat.pos_of_ne_zero fun hzero => ?_⟩
      simp [refuseDays, hzero] at hentry
    · intro e he
      have hentry := entryProblem?_eq_none hconstraints e (Table.mem_of_mem_ofList he)
      refine ⟨hentry.1, ?_⟩
      cases hfinite : e.2.isFinite with
      | true => rfl
      | false => simp [refuseLimit, hfinite] at hentry

/-! ### Rulebooks -/

/-- Rule sets are kept under identifiers, each under its own pair. -/
def Rulebook.Sound (b : Rulebook) : Prop :=
  ∀ j types, b.rules.get? j = some types → Ident.isIdent j = true ∧
    ∀ t r, types.get? t = some r →
      Ident.isIdent t = true ∧ r.WellFormed ∧ r.jurisdiction = j ∧ r.contractType = t

namespace Rulebook

theorem sound_empty : empty.Sound := by
  intro j types h
  cases h

theorem typesOf_get? {b : Rulebook} (hb : b.Sound) {j t : String} {r : RuleSet}
    (h : (b.typesOf j).get? t = some r) :
    Ident.isIdent j = true ∧ Ident.isIdent t = true ∧ r.WellFormed ∧ r.jurisdiction = j ∧
      r.contractType = t := by
  unfold typesOf at h
  cases hj : b.rules.get? j with
  | none =>
    rw [hj] at h
    cases h
  | some types =>
    rw [hj] at h
    obtain ⟨hid, htypes⟩ := hb j types hj
    exact ⟨hid, htypes t r h⟩

theorem Sound.add {b b' : Rulebook} {s : RuleSet} (hb : b.Sound) (hs : s.WellFormed)
    (hj : Ident.isIdent s.jurisdiction = true) (ht : Ident.isIdent s.contractType = true)
    (h : b.add s = .ok b') : b'.Sound := by
  unfold Rulebook.add at h
  simp only at h
  split at h
  · cases h
  · obtain rfl := Except.ok.inj h
    intro j types hget
    simp only [Table.get?_insert] at hget
    split at hget
    · next heq =>
      subst heq
      obtain rfl := Option.some.inj hget
      refine ⟨hj, fun t r hr => ?_⟩
      rw [Table.get?_insert] at hr
      split at hr
      · next heq =>
        subst heq
        obtain rfl := Option.some.inj hr
        exact ⟨ht, hs, rfl, rfl⟩
      · exact (typesOf_get? hb hr).2
    · exact hb j types hget

theorem isIdent_of_checkId {what raw id : String} (h : checkId what raw = .ok id) :
    Ident.isIdent id = true := by
  unfold checkId at h
  simp only at h
  split at h
  · next hid =>
    obtain rfl := Except.ok.inj h
    exact hid
  · cases h

theorem Sound.addTypes {jurisdiction : String} (hj : Ident.isIdent jurisdiction = true)
    {entries : List (String × RuleDraft)} {b b' : Rulebook} (hb : b.Sound)
    (h : b.addTypes jurisdiction entries = .ok b') : b'.Sound := by
  induction entries generalizing b with
  | nil =>
    obtain rfl := Except.ok.inj h
    exact hb
  | cons e rest ih =>
    obtain ⟨raw, draft⟩ := e
    obtain ⟨t, ht, h⟩ := Outcome.bind_eq_ok_iff.1 h
    obtain ⟨s, hs, h⟩ := Outcome.bind_eq_ok_iff.1 h
    obtain ⟨b₁, hb₁, hrest⟩ := Outcome.bind_eq_ok_iff.1 h
    obtain ⟨hformed, rfl, rfl⟩ := RuleDraft.wellFormed hs
    exact ih (hb.add hformed hj (isIdent_of_checkId ht) hb₁) hrest

theorem Sound.addSource {source : Source} {b b' : Rulebook} (hb : b.Sound)
    (h : b.addSource source = .ok b') : b'.Sound := by
  induction source generalizing b with
  | nil =>
    obtain rfl := Except.ok.inj h
    exact hb
  | cons e rest ih =>
    obtain ⟨raw, types⟩ := e
    obtain ⟨j, hj, h⟩ := Outcome.bind_eq_ok_iff.1 h
    obtain ⟨b₁, hb₁, h⟩ := Outcome.bind_eq_ok_iff.1 h
    exact ih (hb.addTypes (isIdent_of_checkId hj) hb₁) h

theorem Sound.addText {text : String} {b b' : Rulebook} (hb : b.Sound)
    (h : b.addText text = .ok b') : b'.Sound := by
  unfold Rulebook.addText at h
  split at h
  · exact hb.addSource h
  · cases h

/-- Every loaded rulebook is sound. -/
theorem sound_of_load {texts : List String} {b : Rulebook} (h : load texts = .ok b) :
    b.Sound :=
  Outcome.foldlM_invariant (fun _ _ _ hb hadd => hb.addText hadd) sound_empty h

theorem lookup_sound {b : Rulebook} (hb : b.Sound) {j t : String} {r : RuleSet}
    (h : b.lookup j t = some r) :
    r.WellFormed ∧ r.jurisdiction = Ident.normalize j ∧ r.contractType = Ident.normalize t :=
  (typesOf_get? hb h).2.2

end Rulebook
end Covenant.Rules
