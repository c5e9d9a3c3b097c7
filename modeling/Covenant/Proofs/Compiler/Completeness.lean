import Covenant.Proofs.Artifact.Stains
import Covenant.Proofs.Builtin.Templates
import Covenant.Proofs.Definition.Accepted
import Covenant.Proofs.Rules.Loaded
import Covenant.Proofs.Vocabulary.Built

/-! The built-in templates and handlers are complete. Whatever the rules and the verbs,
a definition that has been accepted compiles: the slots filled are the slots declared, so
that every body renders, and neither the facts of the contract nor the texts of the
templates can make a slot marker, alone or next to each other. -/
namespace Covenant.Builtin

open Artifact
open Law (Context Regime)
open Rules (Rulebook RuleSet)
open Template (Resolved)

/-! ### What is written into the artifact -/

/-- The context of an accepted definition has identifiers where it must. -/
theorem identified_of_accepted {rules : Rulebook} {vocabulary : Vocabulary} {d : Definition}
    {s : RuleSet} (hd : d.Accepted rules vocabulary) (hvocabulary : vocabulary.VerbsNamed)
    (hs : s.WellFormed) : Identified ⟨d, s⟩ where
  contractType := hd.contractType
  jurisdiction := hd.jurisdiction
  conditions := fun c hc =>
    ⟨hvocabulary c.trigger (.inl (hd.triggers c hc)), hvocabulary c.action (.inr (hd.actions c hc))⟩
  requirements := fun id hid => (mem_requirements.1 hid).elim (hs.requirements id) (hd.requirements id)
  constraints := fun e he => (hs.constraints e he).1

/-- The rules and the template that are found for an accepted definition belong with it. -/
theorem matching_of_accepted {rules rules' : Rulebook} {vocabulary : Vocabulary} {d : Definition}
    (hd : d.Accepted rules vocabulary) (hrules : rules'.Sound) {s : RuleSet}
    (hs : rules'.lookup d.jurisdiction d.contractType = some s) {l : Template.Library} (hl : l.Sound)
    {r : Resolved} (hr : l.resolve d.contractType d.jurisdiction = .ok r) :
    Matching d r s := by
  obtain ⟨_, hsj, hst⟩ := Rulebook.lookup_sound hrules hs
  obtain ⟨_, _, hj⟩ := Template.Library.resolve_eq_ok_iff.1 hr
  have ht := (hl.resolve hr).2
  rw [Ident.normalize_of_isIdent hd.jurisdiction] at hsj hj
  rw [Ident.normalize_of_isIdent hd.contractType] at hst ht
  exact ⟨by rw [pairOfRules, hsj, hst, pairOfDefinition],
    by rw [pairOfTemplate, hj, ht, pairOfDefinition]⟩

/-! ### What is built in -/

section

variable {t j : String} {r : Resolved}

/-- Neither the built-in templates nor a built-in handler have markers in what they give. -/
theorem Serves.not_stained (hr : Serves t j r) (ht : Ident.isIdent t = true) {regime : Regime}
    (hregime : regime.Contained) : ¬Stained r regime.handler := by
  rintro (hprovenance | ⟨e, he, hpreset⟩ | ⟨ctx, l, hl, hmarked⟩)
  · exact unmarked_iff.1 (hr.provenance_unmarked ht) hprovenance
  · exact unmarked_iff.1 (hr.presets_unmarked e.2 (List.mem_map_of_mem he)) hpreset
  · exact not_marked_of_contained (hregime.lines ctx l hl) hmarked

theorem Serves.not_mismade (hr : Serves t j r) : ¬Mismade r :=
  not_mismade_of_slots hr.presets_free hr.slots_eq

theorem Serves.allSealed (hr : Serves t j r) : AllSealed r where
  bodies := fun role => (hr.base.bodies _ (Template.mem_toList r.base.bodies role)).isSealed
  extensions := by
    intro name text htext
    obtain ⟨o, ho, hblock⟩ := Option.bind_eq_some_iff.1 htext
    exact ((hr.overlay o ho).blocks _ (Table.mem_entries.2 hblock)).2.2

end

/-! ### The whole -/

/-- The jurisdictions with a built-in handler. -/
def jurisdictionIds : List String := regimes.map (·.id)

theorem handlers_get? {j : String} (hj : j ∈ jurisdictionIds) :
    ∃ r ∈ regimes, handlers.get? j = some r.handler := by
  have hsome : (handlers.get? j).isSome = true := by
    have hall : (jurisdictionIds.all fun j => (handlers.get? j).isSome) = true := by
      decide +kernel
    exact List.all_eq_true.1 hall j hj
  obtain ⟨h, hh⟩ := Option.isSome_iff_exists.1 hsome
  obtain ⟨r, hr, rfl⟩ := Law.get?_builtin hh
  exact ⟨r, hr, hh⟩

example : jurisdictionIds = ["india", "eu", "us"] := by decide +kernel

/-- A definition that was accepted under whatever rules compiles wherever there are rules for it. -/
theorem compile_of_lookup {c : Compiler} {types : List String} {pairs : List (String × String)}
    (htemplates : Holds types pairs c.templates) (hhandlers : c.handlers = handlers)
    (hrules : c.rules.Sound) {rules : Rulebook} {vocabulary : Vocabulary}
    (hverbs : vocabulary.VerbsNamed) {d : Definition} (hd : d.Accepted rules vocabulary)
    {s : RuleSet} (hs : c.rules.lookup d.jurisdiction d.contractType = some s)
    (hj : d.jurisdiction ∈ jurisdictionIds) (ht : d.contractType ∈ types) :
    ∃ a, c.compile d = .ok a := by
  obtain ⟨r, hresolve, hr⟩ := htemplates.resolve ht hd.contractType hd.jurisdiction
  obtain ⟨regime, hregime, hhandler⟩ := handlers_get? hj
  have hmatching := matching_of_accepted hd hrules hs htemplates.sound hresolve
  have hcontext := identified_of_accepted hd hverbs (Rulebook.lookup_sound hrules hs).1
  cases hcompose : compose c.handlers d r s with
  | ok a => exact ⟨a, Compiler.compile_eq_ok_iff.2 ⟨s, r, hs, hresolve, hcompose⟩⟩
  | error e =>
    exfalso
    rcases (compose_error_iff hr.sound (htemplates.sound.presets_declared hresolve) hmatching).1
      ⟨e, hcompose⟩ with hunhandled | hmismade | ⟨h, hh, hremains⟩
    · rw [← get?_eq_none_iff, hhandlers, hhandler] at hunhandled
      cases hunhandled
    · exact hr.not_mismade hmismade
    · rw [hhandlers, hhandler] at hh
      cases hh
      have hclean := hr.not_stained hd.contractType (Law.contained_builtin hregime)
      exact hr.allSealed.not_remains hcontext (.inl ⟨regime, hregime, rfl⟩) hclean hremains

theorem compile_of_holds {c : Compiler} {types : List String} {pairs : List (String × String)}
    (htemplates : Holds types pairs c.templates) (hhandlers : c.handlers = handlers)
    (hrules : c.rules.Sound) (hverbs : c.vocabulary.VerbsNamed) {text : String} {d : Definition}
    (hd : c.parse text = .ok d) (hj : d.jurisdiction ∈ jurisdictionIds)
    (ht : d.contractType ∈ types) : ∃ a, c.compile d = .ok a := by
  have haccepted := Definition.accepted_of_read hd
  obtain ⟨s, hs, _⟩ := haccepted.supported
  exact compile_of_lookup htemplates hhandlers hrules hverbs haccepted hs hj ht

/-- With the built-in templates and handlers every definition that is accepted compiles,
under whatever rules and with whatever verbs it was read. -/
theorem compile_accepted {c : Compiler} (htemplates : c.templates = templates)
    (hhandlers : c.handlers = handlers) {texts : List String}
    (hrules : Rulebook.load texts = .ok c.rules) (hvocabulary : c.vocabulary.Built)
    {text : String} {d : Definition} (hd : c.parse text = .ok d)
    (hj : d.jurisdiction ∈ ["india", "eu", "us"])
    (ht : d.contractType ∈ ["escrow", "insurance", "settlement"]) :
    ∃ a, c.compile d = .ok a := by
  have hholds := templates_holds
  rw [← htemplates] at hholds
  exact compile_of_holds hholds hhandlers (Rulebook.sound_of_load hrules) hvocabulary.verbsNamed hd
    hj (List.mem_reverse.2 ht)

/-! The deposit of an escrow, under a rule set of one requirement. -/

def depositRules : String :=
  "\x7bindia: \x7bescrow: \x7blegal_requirements: [kyc_verification]\x7d\x7d\x7d"

def depositRulebook : Rulebook :=
  ⟨Table.ofList [("india", Table.ofList [("escrow",
    ⟨"india", "escrow", ["kyc_verification"], [], ∅, ∅⟩)])]⟩

def depositDocument : Document :=
  ⟨"deposit.yaml", [
    "contract:",
    "  type: escrow",
    "  jurisdiction: india",
    "  parties:",
    "    - \x7bname: A, role: payer\x7d",
    "    - \x7bname: B, role: payee\x7d",
    "  conditions:",
    "    - \x7btrigger: delivery_confirmed, action: release_funds\x7d",
    "  legal_requirements: [kyc_verification]"]⟩

def deposit : Definition :=
  ⟨"escrow", "india", [⟨"A", ⟨"payer", .payer⟩, none, true⟩, ⟨"B", ⟨"payee", .payee⟩, none, true⟩],
    [⟨"delivery_confirmed", "release_funds", none, ∅⟩], ["kyc_verification"], {}⟩

theorem depositRulebook_load : Rulebook.load [depositRules] = .ok depositRulebook := by
  decide +kernel

theorem deposit_read :
    Definition.read depositRulebook Vocabulary.builtin depositDocument.text = .ok deposit := by
  apply definition_of_spelled
  · repeat (apply Text.Spelled.cons; exact rfl)
    exact .nil
  · decide +kernel

theorem deposit_compiles :
    Rulebook.load [depositRules] = .ok depositRulebook ∧
      Definition.read depositRulebook Vocabulary.builtin depositDocument.text = .ok deposit ∧
      deposit.jurisdiction ∈ ["india", "eu", "us"] ∧
      deposit.contractType ∈ ["escrow", "insurance", "settlement"] ∧
      ∃ a, Compiler.compile ⟨depositRulebook, templates, Vocabulary.builtin, handlers⟩ deposit =
        .ok a := by
  have hj : deposit.jurisdiction ∈ ["india", "eu", "us"] := List.mem_cons_self
  have ht : deposit.contractType ∈ ["escrow", "insurance", "settlement"] := List.mem_cons_self
  exact ⟨depositRulebook_load, deposit_read, hj, ht,
    compile_accepted rfl rfl depositRulebook_load .builtin deposit_read hj ht⟩

end Covenant.Builtin
