import Covenant.Proofs.Compiler.Provenance

/-! Matching inputs. What is looked up for a definition is looked up by ids that were made normal
when the definition was read, in tables whose keys were made normal when rules and templates were
loaded. An identifier is its own normal form, so all of them agree: rules and template are found
exactly when they are there, and what is found belongs with the definition. -/
namespace Covenant

open Artifact (Matching pairOfDefinition pairOfRules)

/-! ### Look-ups by identifiers -/

namespace Rules.Rulebook

/-- The rule sets that are kept, for whatever pairs. -/
def ruleSets (b : Rulebook) : List RuleSet := b.rules.values.flatMap Table.values

variable {b : Rulebook} {r : RuleSet}

/-- Where rule sets are kept under their own pairs, each is found under its own. -/
theorem Sound.mem_ruleSets (hb : b.Sound) :
    r ∈ b.ruleSets ↔ (b.typesOf r.jurisdiction).get? r.contractType = some r := by
  rw [ruleSets, List.mem_flatMap]
  constructor
  · rintro ⟨types, htypes, hr⟩
    obtain ⟨⟨j, _⟩, hj, rfl⟩ := List.mem_map.1 htypes
    obtain ⟨⟨t, _⟩, ht, rfl⟩ := List.mem_map.1 hr
    have hget := Table.mem_entries.1 hj
    obtain ⟨_, _, rfl, rfl⟩ := (hb _ _ hget).2 _ _ (Table.mem_entries.1 ht)
    rw [typesOf, hget]
    exact Table.mem_entries.1 ht
  · intro h
    rw [typesOf] at h
    cases hget : b.rules.get? r.jurisdiction with
    | none =>
      rw [hget] at h
      cases h
    | some types =>
      rw [hget] at h
      exact ⟨types, List.mem_map.2 ⟨_, Table.mem_entries.2 hget, rfl⟩,
        List.mem_map.2 ⟨_, Table.mem_entries.2 h, rfl⟩⟩

variable {j t : String}

theorem Sound.lookup_eq_some_iff (hb : b.Sound) (hj : Ident.isIdent j = true)
    (ht : Ident.isIdent t = true) :
    b.lookup j t = some r ↔ r ∈ b.ruleSets ∧ pairOfRules r = ⟨j, t⟩ := by
  rw [lookup, Ident.normalize_of_isIdent hj, Ident.normalize_of_isIdent ht, pairOfRules,
    Artifact.Pair.mk.injEq]
  constructor
  · intro h
    obtain ⟨_, _, _, rfl, rfl⟩ := typesOf_get? hb h
    exact ⟨hb.mem_ruleSets.2 h, rfl, rfl⟩
  · rintro ⟨hr, rfl, rfl⟩
    exact hb.mem_ruleSets.1 hr

theorem supports_iff_mem (hj : Ident.isIdent j = true) :
    b.supports j = true ↔ j ∈ b.jurisdictions := by
  rw [supports, Ident.normalize_of_isIdent hj, jurisdictions, Table.mem_keys]

end Rules.Rulebook

namespace Template.Library

variable {l : Library} {t j : String}

theorem Sound.get?_eq_none_iff (hl : l.Sound) (ht : Ident.isIdent t = true) :
    l.get? t = none ↔ ∀ b ∈ l.bases.values, b.name ≠ t := by
  rw [get?, Ident.normalize_of_isIdent ht, Option.eq_none_iff_forall_ne_some]
  constructor
  · rintro h b hb rfl
    obtain ⟨⟨u, _⟩, he, rfl⟩ := List.mem_map.1 hb
    have hget := Table.mem_entries.1 he
    obtain ⟨rfl, _⟩ := hl.bases _ _ hget
    exact h _ hget
  · intro h b hget
    exact h b (List.mem_map.2 ⟨_, Table.mem_entries.2 hget, rfl⟩) (hl.bases _ _ hget).1

/-- There is no template for a contract type when there is no base of its name. -/
theorem Sound.resolve_eq_error_iff (hl : l.Sound) (ht : Ident.isIdent t = true) {e : Error} :
    l.resolve t j = .error e ↔ (∀ b ∈ l.bases.values, b.name ≠ t) ∧ e = .notFound t := by
  rw [← hl.get?_eq_none_iff ht]
  unfold Library.resolve
  cases l.get? t with
  | none => simp [Ident.normalize_of_isIdent ht, eq_comm]
  | some b => simp

end Template.Library

/-! ### The errors of a compilation -/

namespace Compiler

open Rules (Rulebook)

variable {c : Compiler} {d : Definition}

theorem compile_eq_definition_error_iff {problems : List Problem} :
    c.compile d = .error (.definition problems) ↔
      c.rules.lookup d.jurisdiction d.contractType = none ∧ problems = [c.unsupported d] := by
  obtain ⟨hs, hc⟩ | ⟨_, _, hs, _, hc⟩ | ⟨_, _, hs, _, hc⟩ := c.compile_cases d
  · simp [hs, hc, eq_comm]
  · simp [hs, hc]
  · simp [hs, hc, Outcome.mapError_eq_error_iff]

theorem compile_eq_template_error_iff {e : Template.Error} :
    c.compile d = .error (.template e) ↔
      (∃ rules, c.rules.lookup d.jurisdiction d.contractType = some rules) ∧
        c.templates.resolve d.contractType d.jurisdiction = .error e := by
  obtain ⟨hs, hc⟩ | ⟨_, _, hs, hr, hc⟩ | ⟨_, _, hs, hr, hc⟩ := c.compile_cases d
  · simp [hs, hc]
  · simp [hs, hr, hc]
  · simp [hs, hr, hc, Outcome.mapError_eq_error_iff]

/-- Inputs that belong together are not refused for not doing so. -/
theorem compose_ne_mismatch {handlers : Law.Handlers} {r : Template.Resolved} {s : Rules.RuleSet}
    (hr : r.Sound) (hp : ∀ slot ∈ r.presets.keys, r.slots.get? slot = some .scalar)
    (hm : Matching d r s) (what : String) (found wanted : Artifact.Pair) :
    Artifact.compose handlers d r s ≠ .error (.mismatch what found wanted) := by
  intro h
  have hverdict : Artifact.Verdict handlers d r s (Artifact.compose handlers d r s) :=
    Artifact.verdict_compose hr hp
  rw [h] at hverdict
  cases hverdict with
  | otherRules hne => exact hne hm.rules
  | otherTemplate _ hne => exact hne hm.template

variable {rules : Rulebook} {vocabulary : Vocabulary}

/-- A definition is refused, under whatever rules it is compiled, when these have no rule set for
its pair, and then for that one reason. -/
theorem refused_iff (hrules : c.rules.Sound) (hd : d.Accepted rules vocabulary)
    {problems : List Problem} : c.compile d = .error (.definition problems) ↔
      (∀ s ∈ c.rules.ruleSets, pairOfRules s ≠ pairOfDefinition d) ∧
        ((d.jurisdiction ∈ c.rules.jurisdictions ∧
            problems = [.unsupportedType d.jurisdiction d.contractType]) ∨
          (d.jurisdiction ∉ c.rules.jurisdictions ∧
            problems = [.unsupportedJurisdiction d.jurisdiction])) := by
  have hnone : c.rules.lookup d.jurisdiction d.contractType = none ↔
      ∀ s ∈ c.rules.ruleSets, pairOfRules s ≠ pairOfDefinition d := by
    simp only [Option.eq_none_iff_forall_ne_some, ne_eq,
      hrules.lookup_eq_some_iff hd.jurisdiction hd.contractType, not_and]
    rfl
  rw [compile_eq_definition_error_iff, hnone, unsupported,
    ← Rulebook.supports_iff_mem hd.jurisdiction]
  cases c.rules.supports d.jurisdiction with
  | true => simp
  | false => simp

theorem templateless_iff (hrules : c.rules.Sound) (htemplates : c.templates.Sound)
    (hd : d.Accepted rules vocabulary) {e : Template.Error} :
    c.compile d = .error (.template e) ↔
      (∃ s ∈ c.rules.ruleSets, pairOfRules s = pairOfDefinition d) ∧
        (∀ b ∈ c.templates.bases.values, b.name ≠ d.contractType) ∧
          e = .notFound d.contractType := by
  rw [compile_eq_template_error_iff, htemplates.resolve_eq_error_iff hd.contractType]
  simp only [hrules.lookup_eq_some_iff hd.jurisdiction hd.contractType, pairOfDefinition]

theorem compile_ne_mismatch (hrules : c.rules.Sound) (htemplates : c.templates.Sound)
    (hd : d.Accepted rules vocabulary) (what : String) (found wanted : Artifact.Pair) :
    c.compile d ≠ .error (.artifact (.mismatch what found wanted)) := by
  intro h
  obtain ⟨s, r, hlookup, hresolve, hcompose⟩ := compile_eq_composition_error_iff.1 h
  exact compose_ne_mismatch (htemplates.resolve hresolve).1 (htemplates.presets_declared hresolve)
    (Builtin.matching_of_accepted hd hrules hlookup htemplates hresolve) _ _ _ hcompose

/-- A definition that one compiler accepts is refused by another exactly when that one has no rule
set for its pair, with the one problem that says whether the jurisdiction is known. It lacks a
template exactly when there is a rule set but no base template of its contract type, and its inputs
never mismatch. The compiler that accepted it does not refuse it. -/
theorem compile_of_parsed {c₁ c₂ : Compiler} {text : String} {d : Definition}
    (hd : c₁.parse text = .ok d) {texts : List String}
    (hrules : Rulebook.load texts = .ok c₂.rules) {offers : List Template.Offer}
    (hoffers : ∀ x ∈ offers, x.Read)
    (htemplates : c₂.templates = Template.Library.ofOffers offers) :
    (∀ problems, c₂.compile d = .error (.definition problems) ↔
      (∀ s ∈ c₂.rules.ruleSets, pairOfRules s ≠ pairOfDefinition d) ∧
        ((d.jurisdiction ∈ c₂.rules.jurisdictions ∧
            problems = [.unsupportedType d.jurisdiction d.contractType]) ∨
          (d.jurisdiction ∉ c₂.rules.jurisdictions ∧
            problems = [.unsupportedJurisdiction d.jurisdiction]))) ∧
    (∀ e, c₂.compile d = .error (.template e) ↔
      (∃ s ∈ c₂.rules.ruleSets, pairOfRules s = pairOfDefinition d) ∧
        (∀ b ∈ c₂.templates.bases.values, b.name ≠ d.contractType) ∧
          e = .notFound d.contractType) ∧
    (∀ what found wanted, c₂.compile d ≠ .error (.artifact (.mismatch what found wanted))) ∧
    ∀ problems, c₁.compile d ≠ .error (.definition problems) := by
  have haccepted := Definition.accepted_of_read hd
  have hsound := Rulebook.sound_of_load hrules
  have hlibrary : c₂.templates.Sound :=
    htemplates ▸ (Template.Library.loaded_ofOffers hoffers).sound
  refine ⟨fun _ => refused_iff hsound haccepted,
    fun _ => templateless_iff hsound hlibrary haccepted,
    compile_ne_mismatch hsound hlibrary haccepted, fun problems h => ?_⟩
  obtain ⟨s, hs, _⟩ := haccepted.supported
  rw [(compile_eq_definition_error_iff.1 h).1] at hs
  cases hs

/-! The deposit, under rules that know its jurisdiction and not its type, and where there are rules
for it but no templates. -/

def leaseRules : String :=
  "\x7bindia: \x7blease: \x7blegal_requirements: [stamp_duty]\x7d\x7d\x7d"

def leaseRulebook : Rulebook :=
  ⟨Table.ofList [("india", Table.ofList [("lease",
    ⟨"india", "lease", ["stamp_duty"], [], ∅, ∅⟩)])]⟩

/-- A compiler with rules and a vocabulary only. -/
def bare (rules : Rulebook) : Compiler :=
  ⟨rules, Template.Library.ofOffers [], Vocabulary.builtin, Builtin.handlers⟩

theorem leaseRulebook_load : Rulebook.load [leaseRules] = .ok leaseRulebook := by
  decide +kernel

theorem deposit_compiles_nowhere :
    (bare Builtin.depositRulebook).parse Builtin.depositDocument.text = .ok Builtin.deposit ∧
      (bare leaseRulebook).compile Builtin.deposit =
        .error (.definition [.unsupportedType "india" "escrow"]) ∧
      (bare Builtin.depositRulebook).compile Builtin.deposit =
        .error (.template (.notFound "escrow")) := by
  have hparse : (bare Builtin.depositRulebook).parse Builtin.depositDocument.text =
      .ok Builtin.deposit := Builtin.deposit_read
  have hoffers : ∀ x ∈ ([] : List Template.Offer), x.Read := fun _ hx => nomatch hx
  refine ⟨hparse, ?_, ?_⟩
  · obtain ⟨hrefused, _⟩ :=
      @compile_of_parsed _ (bare leaseRulebook) _ _ hparse _ leaseRulebook_load _ hoffers rfl
    refine (hrefused _).2 ⟨?_, .inl ⟨?_, rfl⟩⟩
    · decide +kernel
    · decide +kernel
  · obtain ⟨_, htemplateless, _⟩ := @compile_of_parsed _ (bare Builtin.depositRulebook) _ _ hparse _
      Builtin.depositRulebook_load _ hoffers rfl
    refine (htemplateless _).2 ⟨?_, ?_, rfl⟩
    · decide +kernel
    · exact fun b hb => nomatch hb

end Compiler
end Covenant
