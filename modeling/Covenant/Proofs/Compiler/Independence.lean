import Covenant.Proofs.Compiler.Completeness

/-! What errors of composition depend on. For a pair of contract type and jurisdiction the
templates and the handler either fit or they do not, and no definition can change that,
but for one thing: what a user wrote may start or end with a brace, or be empty, and then
braces may meet where it stands next to something else. Two accepted definitions for a
pair fail alike exactly when the templates and the handler do not fit, or when both of
them or neither lets braces meet. -/
namespace Covenant

namespace Compiler

open Artifact (Mismade Stained)

/-- The definition fails to compile with an error of composition. -/
def Miscomposes (c : Compiler) (d : Definition) : Prop := ∃ e, c.compile d = .error (.artifact e)

/-- For the pair there is a template, but no composition can be made with it. -/
def Unfit (c : Compiler) (contractType jurisdiction : String) : Prop :=
  ∃ r, c.templates.resolve contractType jurisdiction = .ok r ∧
    (jurisdiction ∉ c.handlers.ids ∨ Mismade r ∨
      ∃ h, c.handlers.get? jurisdiction = some h ∧ Stained r h)

/-- Braces meet in a body that is rendered for the definition. -/
def BracesMeet (c : Compiler) (d : Definition) : Prop :=
  ∃ rules r h, c.rules.lookup d.jurisdiction d.contractType = some rules ∧
    c.templates.resolve d.contractType d.jurisdiction = .ok r ∧
    c.handlers.get? d.jurisdiction = some h ∧ Artifact.HasSeam d rules r h

theorem compile_eq_composition_error_iff {c : Compiler} {d : Definition} {e : Artifact.Error} :
    c.compile d = .error (.artifact e) ↔ ∃ rules r,
      c.rules.lookup d.jurisdiction d.contractType = some rules ∧
        c.templates.resolve d.contractType d.jurisdiction = .ok r ∧
        Artifact.compose c.handlers d r rules = .error e := by
  obtain ⟨hs, hc⟩ | ⟨_, _, hs, hr, hc⟩ | ⟨_, _, hs, hr, hc⟩ := c.compile_cases d
  · simp [hs, hc]
  · simp [hs, hr, hc]
  · simp [hs, hr, hc, Outcome.mapError_eq_error_iff]

/-- With a template that has been resolved, composition fails where a marker remains, or else for
the template's sake. -/
theorem miscomposes_iff_remains {c : Compiler} (hrules : c.rules.Sound)
    (htemplates : c.templates.Sound) {d : Definition} (hd : d.Accepted c.rules c.vocabulary)
    {rules : Rules.RuleSet} (hlookup : c.rules.lookup d.jurisdiction d.contractType = some rules)
    {r : Template.Resolved} (hresolve : c.templates.resolve d.contractType d.jurisdiction = .ok r) :
    c.Miscomposes d ↔ d.jurisdiction ∉ c.handlers.ids ∨ Mismade r ∨
      ∃ h, c.handlers.get? d.jurisdiction = some h ∧ Artifact.Remains d rules r h := by
  have hmatching := Builtin.matching_of_accepted hd hrules hlookup htemplates hresolve
  rw [← Artifact.compose_error_iff (htemplates.resolve hresolve).1
    (htemplates.presets_declared hresolve) hmatching]
  simp [Miscomposes, compile_eq_composition_error_iff, hlookup, hresolve]

/-- Whether an accepted definition fails to be composed: the templates and the handler do not fit,
or the definition lets braces meet. -/
theorem miscomposes_iff {c : Compiler} (hrules : c.rules.Sound) (hverbs : c.vocabulary.VerbsNamed)
    (htemplates : c.templates.Loaded) (hhandlers : ∀ j h, c.handlers.get? j = some h → h.Known)
    {source : String} {d : Definition} (hd : c.parse source = .ok d) :
    c.Miscomposes d ↔ c.Unfit d.contractType d.jurisdiction ∨ c.BracesMeet d := by
  have haccepted := Definition.accepted_of_read hd
  obtain ⟨rules, hlookup, _⟩ := haccepted.supported
  have hcontext := Builtin.identified_of_accepted haccepted hverbs
    (Rules.Rulebook.lookup_sound hrules hlookup).1
  cases hresolve : c.templates.resolve d.contractType d.jurisdiction with
  | error e =>
    simp [Miscomposes, compile_eq_composition_error_iff, Unfit, BracesMeet, hresolve]
  | ok r =>
    have hunfit : c.Unfit d.contractType d.jurisdiction ↔ d.jurisdiction ∉ c.handlers.ids ∨
        Mismade r ∨ ∃ h, c.handlers.get? d.jurisdiction = some h ∧ Stained r h := by
      simp [Unfit, hresolve]
    have hmeet : c.BracesMeet d ↔ ∃ h, c.handlers.get? d.jurisdiction = some h ∧
        Artifact.HasSeam d rules r h := by
      simp [BracesMeet, hlookup, hresolve]
    rw [miscomposes_iff_remains hrules htemplates.sound haccepted hlookup hresolve, hunfit, hmeet,
      or_assoc, or_assoc]
    by_cases hmismade : Mismade r
    · simp only [hmismade, true_or, or_true]
    · refine or_congr Iff.rfl (or_congr Iff.rfl ?_)
      rw [← exists_or]
      refine exists_congr fun h => ?_
      rw [← and_or_left]
      exact and_congr_right fun hh =>
        Artifact.remains_iff htemplates hresolve hcontext (hhandlers _ h hh) hmismade

/-- Where the template is sealed, whether the composition fails is a matter of the pair alone. -/
theorem miscomposes_iff_unfit {c : Compiler} (hrules : c.rules.Sound)
    (hverbs : c.vocabulary.VerbsNamed) (htemplates : c.templates.Loaded)
    (hhandlers : ∀ j h, c.handlers.get? j = some h → h.Known) {source : String} {d : Definition}
    (hd : c.parse source = .ok d) (hsealed : ∀ r,
      c.templates.resolve d.contractType d.jurisdiction = .ok r → Artifact.AllSealed r) :
    c.Miscomposes d ↔ c.Unfit d.contractType d.jurisdiction := by
  have haccepted := Definition.accepted_of_read hd
  rw [miscomposes_iff hrules hverbs htemplates hhandlers hd, or_iff_left_iff_imp]
  rintro ⟨rules, r, h, hlookup, hresolve, hh, hseam⟩
  by_contra hfit
  have hmade : ¬Mismade r := fun hmismade => hfit ⟨r, hresolve, .inr (.inl hmismade)⟩
  have hclean : ¬Stained r h := fun hstained => hfit ⟨r, hresolve, .inr (.inr ⟨h, hh, hstained⟩)⟩
  have hctx := Builtin.identified_of_accepted haccepted hverbs
    (Rules.Rulebook.lookup_sound hrules hlookup).1
  exact (hsealed r hresolve).not_remains hctx (hhandlers _ h hh) hclean
    ((Artifact.remains_iff htemplates hresolve hctx (hhandlers _ h hh) hmade).2 (.inr hseam))

/-! ### A brace after a name

A template with a brace right after the name of the payer can be composed for the payers whose
names do not end with a brace, and for no others. -/

/-- The name of the payer, a brace, and then nothing that could make a marker. -/
def startsOpen : List Template.Segment → Bool
  | .inline (.slot name) :: .inline (.text ['{', '\n']) :: rest =>
    name.value == "payer_name" && Artifact.isSealed rest
  | _ => false

/-- What has to be known of the template. -/
structure OpenName (b : Template.Base) : Prop where
  name : b.name = "escrow"
  version : b.version = "1"
  slots : b.slots = Table.ofList Artifact.factKinds
  presets : b.presets.keys = []
  primary : startsOpen b.bodies.primary.segments = true
  deploy : Artifact.isSealed b.bodies.deploy.segments = true
  test : Artifact.isSealed b.bodies.test.segments = true

instance : DecidablePred OpenName := fun b =>
  decidable_of_iff (b.name = "escrow" ∧ b.version = "1" ∧
      b.slots = Table.ofList Artifact.factKinds ∧ b.presets.keys = [] ∧
      startsOpen b.bodies.primary.segments = true ∧
      Artifact.isSealed b.bodies.deploy.segments = true ∧
      Artifact.isSealed b.bodies.test.segments = true)
    ⟨fun ⟨h₁, h₂, h₃, h₄, h₅, h₆, h₇⟩ => ⟨h₁, h₂, h₃, h₄, h₅, h₆, h₇⟩,
      fun h => ⟨h.name, h.version, h.slots, h.presets, h.primary, h.deploy, h.test⟩⟩

/-- A template of escrows with every slot that is filled, and a brace after the first of them. -/
def openName : Builtin.Document :=
  ⟨"open_name.toml", [
    "[template]",
    "name = 'escrow'",
    "version = '1'",
    "[slots]",
    "payer_name = 'scalar'",
    "contract_name = 'scalar'",
    "contract_type = 'scalar'",
    "jurisdiction = 'scalar'",
    "definition_version = 'scalar'",
    "description = 'scalar'",
    "jurisdiction_name = 'scalar'",
    "template_version = 'scalar'",
    "payer_address = 'scalar'",
    "payee_name = 'scalar'",
    "payee_address = 'scalar'",
    "legal_requirements = 'scalar'",
    "legal_requirement_count = 'scalar'",
    "mandatory_clauses = 'scalar'",
    "time_limit_constants = 'block'",
    "constraint_constants = 'block'",
    "condition_handlers = 'block'",
    "requirement_registration = 'block'",
    "party_registration = 'block'",
    "test_cases = 'block'",
    "jurisdiction_state = 'block'",
    "jurisdiction_initialization = 'block'",
    "compliance_verification = 'block'",
    "dispute_handling = 'block'",
    "jurisdiction_functions = 'block'",
    "[bodies]",
    "primary = '''",
    "\x7b\x7bpayer_name\x7d\x7d\x7b",
    "\x7b\x7bcontract_name\x7d\x7d",
    "\x7b\x7bcontract_type\x7d\x7d",
    "\x7b\x7bjurisdiction\x7d\x7d",
    "\x7b\x7bdefinition_version\x7d\x7d",
    "\x7b\x7bdescription\x7d\x7d",
    "\x7b\x7bjurisdiction_name\x7d\x7d",
    "\x7b\x7btemplate_version\x7d\x7d",
    "\x7b\x7bpayer_address\x7d\x7d",
    "\x7b\x7bpayee_name\x7d\x7d",
    "\x7b\x7bpayee_address\x7d\x7d",
    "\x7b\x7blegal_requirements\x7d\x7d",
    "\x7b\x7blegal_requirement_count\x7d\x7d",
    "\x7b\x7bmandatory_clauses\x7d\x7d",
    "\x7b\x7b#block time_limit_constants\x7d\x7d\x7b\x7b/block\x7d\x7d",
    "\x7b\x7b#block constraint_constants\x7d\x7d\x7b\x7b/block\x7d\x7d",
    "\x7b\x7b#block condition_handlers\x7d\x7d\x7b\x7b/block\x7d\x7d",
    "\x7b\x7b#block requirement_registration\x7d\x7d\x7b\x7b/block\x7d\x7d",
    "\x7b\x7b#block party_registration\x7d\x7d\x7b\x7b/block\x7d\x7d",
    "\x7b\x7b#block test_cases\x7d\x7d\x7b\x7b/block\x7d\x7d",
    "\x7b\x7b#block jurisdiction_state\x7d\x7d\x7b\x7b/block\x7d\x7d",
    "\x7b\x7b#block jurisdiction_initialization\x7d\x7d\x7b\x7b/block\x7d\x7d",
    "\x7b\x7b#block compliance_verification\x7d\x7d\x7b\x7b/block\x7d\x7d",
    "\x7b\x7b#block dispute_handling\x7d\x7d\x7b\x7b/block\x7d\x7d",
    "\x7b\x7b#block jurisdiction_functions\x7d\x7d\x7b\x7b/block\x7d\x7d",
    "'''",
    "deploy = '''",
    "\x7b\x7bjurisdiction\x7d\x7d",
    "\x7b\x7bcontract_type\x7d\x7d",
    "\x7b\x7blegal_requirements\x7d\x7d",
    "'''",
    "test = '''",
    "\x7b\x7bjurisdiction\x7d\x7d",
    "\x7b\x7bcontract_type\x7d\x7d",
    "\x7b\x7blegal_requirements\x7d\x7d",
    "'''"]⟩

theorem openName_read :
    ∃ b, Template.Base.read openName.text openName.name = .ok b ∧ OpenName b := by
  apply Builtin.base_of_spelled
  · unfold openName
    dsimp only
    repeat (apply Text.Spelled.cons; exact rfl)
    exact .nil
  · decide +kernel

section

open Template (Resolved Library)
open Artifact (Fills)

variable {b : Template.Base}

def openNameCompiler (b : Template.Base) : Compiler :=
  ⟨Builtin.depositRulebook, .ofOffers [.base b], Vocabulary.builtin, Builtin.handlers⟩

theorem resolve_openName (hb : OpenName b) :
    (Library.ofOffers [.base b]).resolve "escrow" "india" = .ok ⟨b, none, "india"⟩ := by
  have hbases : (Library.ofOffers [.base b]).bases = (∅ : Table Template.Base).insert b.name b := rfl
  have hescrow : Ident.normalize "escrow" = "escrow" := Ident.normalize_of_isIdent (by decide)
  have hindia : Ident.normalize "india" = "india" := Ident.normalize_of_isIdent (by decide)
  refine Library.resolve_eq_ok_iff.2 ⟨?_, rfl, hindia.symm⟩
  rw [Library.get?, hbases, hescrow, hb.name, Table.get?_insert, if_pos rfl]

theorem eq_of_startsOpen {segs : List Template.Segment} (h : startsOpen segs = true) :
    ∃ name rest, segs = .inline (.slot name) :: .inline (.text ['{', '\n']) :: rest ∧
      name.value = "payer_name" ∧ Artifact.isSealed rest = true := by
  unfold startsOpen at h
  split at h
  · next name rest =>
    rw [Bool.and_eq_true, beq_iff_eq] at h
    exact ⟨name, rest, rfl, h⟩
  · cases h

variable {rules : Rules.RuleSet} {d : Definition}

theorem not_stained_openName (hb : OpenName b) {regime : Law.Regime} (hr : regime.Contained) :
    ¬Stained ⟨b, none, "india"⟩ regime.handler := by
  rintro (hprovenance | ⟨e, he, _⟩ | ⟨ctx, l, hl, hmarked⟩)
  · have htext : (Resolved.provenance ⟨b, none, "india"⟩).text = "escrow@1" := by
      rw [Resolved.provenance, hb.name, hb.version]
      rfl
    rw [htext] at hprovenance
    exact Artifact.not_marked_of_not_mem (by decide) hprovenance
  · have hkey : e.1 ∈ b.presets.keys := List.mem_map_of_mem he
    rw [hb.presets] at hkey
    cases hkey
  · exact Artifact.not_marked_of_contained (hr.lines ctx l hl) hmarked

theorem slots_openName (hb : OpenName b) :
    b.slots = Table.ofList (Artifact.fillKinds ⟨b, none, "india"⟩) := by
  have hpresets : (Resolved.presets ⟨b, none, "india"⟩).keys = [] := hb.presets
  rw [Artifact.fillKinds, hpresets, List.map_nil, List.append_nil, hb.slots]

theorem not_mismade_openName (hb : OpenName b) : ¬Mismade ⟨b, none, "india"⟩ := by
  have hpresets : (Resolved.presets ⟨b, none, "india"⟩).keys = [] := hb.presets
  exact Artifact.not_mismade_of_slots (by simp [hpresets]) (slots_openName hb)

theorem not_marked_of_isSealed {f : Fills} (hf : f.Unmarked) {segs : List Template.Segment}
    (hsegs : Artifact.isSealed segs = true) {text : List Char}
    (htext : f.render ⟨b, none, "india"⟩ ⟨[], segs⟩ = .ok text) : ¬Artifact.Marked text := by
  have hextensions : f.UnmarkedExtensions ⟨b, none, "india"⟩ := by
    intro name t ht
    cases ht
  exact Artifact.unmarked_iff.1 (Artifact.unmarked_of_isSealed hf hextensions hsegs htext)

/-- The name of the payer meets the brace after it, and nothing else makes a marker. -/
theorem marked_openName_iff (hb : OpenName b) {f : Fills} (hf : f.Unmarked) {name : String}
    (hname : f.text "payer_name" = .ok name) {text : List Char}
    (htext : f.render ⟨b, none, "india"⟩ b.bodies.primary = .ok text) :
    Artifact.Marked text ↔ name.toList.getLast? = some '{' := by
  obtain ⟨slot, rest, hsegs, hslot, hrest⟩ := eq_of_startsOpen hb.primary
  rw [Fills.render, hsegs] at htext
  obtain ⟨first, after, hfirst, hafter, rfl⟩ := Fills.renderSegments_cons.1 htext
  obtain ⟨brace, end_, hbrace, hend, rfl⟩ := Fills.renderSegments_cons.1 hafter
  have hfirst : (f.text slot.value).map String.toList = .ok first := hfirst
  rw [hslot, hname] at hfirst
  obtain rfl : name.toList = first := Except.ok.inj hfirst
  obtain rfl : ['{', '\n'] = brace := Except.ok.inj hbrace
  have hname : ¬Artifact.Marked name.toList := Artifact.unmarked_iff.1 (hf.text hname)
  have hbrace : ¬Artifact.Marked ['{', '\n'] := Artifact.unmarked_iff.1 (by decide)
  have hrest : ¬Artifact.Marked end_ := not_marked_of_isSealed hf hrest hend
  rw [Artifact.marked_append_iff, Artifact.marked_append_of_last (by decide)]
  simp [hname, hbrace, hrest]

/-- A marker remains when the name of the payer ends with a brace. -/
theorem remains_openName_iff (hb : OpenName b) (hsound : Resolved.Sound ⟨b, none, "india"⟩)
    (hctx : Artifact.Identified ⟨d, rules⟩) {regime : Law.Regime}
    (hregime : regime ∈ Builtin.regimes) :
    Artifact.Remains d rules ⟨b, none, "india"⟩ regime.handler ↔
      (Artifact.partyName d.payer).toList.getLast? = some '{' := by
  have hpresets : (Resolved.presets ⟨b, none, "india"⟩).keys = [] := hb.presets
  obtain ⟨f, hf⟩ := Artifact.exists_build (r := ⟨b, none, "india"⟩) ⟨d, rules⟩ regime.handler
    (by simp [hpresets])
  have hverify := (Artifact.verify_build_eq_ok_iff hf).2 (slots_openName hb)
  have hfits := Fills.verify_eq_ok_iff.1 hverify
  have hunmarked := Artifact.unmarked_of_not_stained hctx (.inl ⟨regime, hregime, rfl⟩) hf
    (not_stained_openName hb (Law.contained_builtin hregime))
  have hname : f.text "payer_name" = .ok (Artifact.partyName d.payer) := by
    have hget : f.get? "payer_name" = some (.scalar (Artifact.partyName d.payer)) :=
      (Artifact.get?_build hf).2 (by simp [Artifact.facts, Artifact.scalars])
    rw [Fills.text, hget]
  constructor
  · rintro ⟨f', role, text, hf', htext, hmarked⟩
    obtain rfl := Except.ok.inj (hf.symm.trans hf')
    cases role with
    | primary => exact (marked_openName_iff hb hunmarked hname htext).1 hmarked
    | deploy => exact absurd hmarked (not_marked_of_isSealed hunmarked hb.deploy htext)
    | test => exact absurd hmarked (not_marked_of_isSealed hunmarked hb.test htext)
  · intro hlast
    obtain ⟨text, htext⟩ := Fills.render_of_fits hsound hfits .primary
    exact ⟨f, .primary, text, hf, htext, (marked_openName_iff hb hunmarked hname htext).2 hlast⟩

theorem miscomposes_openName_iff (hread : (Template.Offer.base b).Read) (hb : OpenName b)
    {source : String} (hd : (openNameCompiler b).parse source = .ok d)
    (hpair : Artifact.pairOfDefinition d = ⟨"india", "escrow"⟩) :
    (openNameCompiler b).Miscomposes d ↔
      (Artifact.partyName d.payer).toList.getLast? = some '{' := by
  obtain ⟨hjurisdiction, htype⟩ := Artifact.Pair.mk.inj hpair
  have hrules := Rules.Rulebook.sound_of_load Builtin.depositRulebook_load
  have haccepted := Definition.accepted_of_read hd
  obtain ⟨rules, hlookup, _⟩ := haccepted.supported
  have hctx : Artifact.Identified ⟨d, rules⟩ := Builtin.identified_of_accepted haccepted
    Vocabulary.Built.builtin.verbsNamed (Rules.Rulebook.lookup_sound hrules hlookup).1
  have htemplates : (Library.ofOffers [.base b]).Sound :=
    (Library.loaded_ofOffers (List.forall_mem_singleton.2 hread)).sound
  have hresolve : (Library.ofOffers [.base b]).resolve d.contractType d.jurisdiction =
      .ok ⟨b, none, "india"⟩ := by
    rw [hjurisdiction, htype, resolve_openName hb]
  obtain ⟨regime, hregime, hhandler⟩ := Builtin.handlers_get? (j := d.jurisdiction)
    (by rw [hjurisdiction]; exact List.mem_cons_self)
  have hhandled : d.jurisdiction ∈ Builtin.handlers.ids := by
    by_contra hnone
    rw [← Artifact.get?_eq_none_iff, hhandler] at hnone
    cases hnone
  rw [miscomposes_iff_remains (c := openNameCompiler b) hrules htemplates haccepted hlookup hresolve,
    ← remains_openName_iff hb (htemplates.resolve hresolve).1 hctx hregime]
  simp [openNameCompiler, hhandled, not_mismade_openName hb, hhandler]

end

/-! The payer of the deposit, with a brace at the end of the name. -/

def bracedDocument : Builtin.Document :=
  ⟨"braced.yaml", [
    "contract:",
    "  type: escrow",
    "  jurisdiction: india",
    "  parties:",
    "    - \x7bname: \"A\x7b\", role: payer\x7d",
    "    - \x7bname: B, role: payee\x7d",
    "  conditions:",
    "    - \x7btrigger: delivery_confirmed, action: release_funds\x7d",
    "  legal_requirements: [kyc_verification]"]⟩

def braced : Definition :=
  ⟨"escrow", "india",
    [⟨"A\x7b", ⟨"payer", .payer⟩, none, true⟩, ⟨"B", ⟨"payee", .payee⟩, none, true⟩],
    [⟨"delivery_confirmed", "release_funds", none, ∅⟩], ["kyc_verification"], {}⟩

theorem braced_read :
    Definition.read Builtin.depositRulebook Vocabulary.builtin bracedDocument.text = .ok braced := by
  apply Builtin.definition_of_spelled
  · repeat (apply Text.Spelled.cons; exact rfl)
    exact .nil
  · decide +kernel

/-! ### Two definitions for a pair -/

/-- Two definitions that are accepted for the same pair fail alike to be composed exactly when
nothing can be composed for the pair, or when both of them or neither lets braces meet. -/
theorem miscomposes_agree_iff {c : Compiler} {texts : List String}
    (hrules : Rules.Rulebook.load texts = .ok c.rules) (hvocabulary : c.vocabulary.Built)
    {offers : List Template.Offer} (hoffers : ∀ x ∈ offers, x.Read)
    (htemplates : c.templates = Template.Library.ofOffers offers)
    (hhandlers : ∀ j h, c.handlers.get? j = some h → h.Known) {source source' : String}
    {d d' : Definition} (hd : c.parse source = .ok d) (hd' : c.parse source' = .ok d')
    (hpair : Artifact.pairOfDefinition d = Artifact.pairOfDefinition d') :
    (c.Miscomposes d ↔ c.Miscomposes d') ↔
      c.Unfit d.contractType d.jurisdiction ∨ (c.BracesMeet d ↔ c.BracesMeet d') := by
  have hsound := Rules.Rulebook.sound_of_load hrules
  have hloaded : c.templates.Loaded := by
    rw [htemplates]
    exact Template.Library.loaded_ofOffers hoffers
  obtain ⟨hjurisdiction, htype⟩ := Artifact.Pair.mk.inj hpair
  rw [miscomposes_iff hsound hvocabulary.verbsNamed hloaded hhandlers hd,
    miscomposes_iff hsound hvocabulary.verbsNamed hloaded hhandlers hd', ← hjurisdiction, ← htype]
  by_cases hunfit : c.Unfit d.contractType d.jurisdiction
  · simp only [hunfit, true_or]
  · simp only [hunfit, false_or]

theorem deposit_agrees_iff : ∃ b,
    Template.Base.read openName.text openName.name = .ok b ∧
      (((openNameCompiler b).Miscomposes Builtin.deposit ↔
          (openNameCompiler b).Miscomposes braced) ↔
        (openNameCompiler b).Unfit "escrow" "india" ∨
          ((openNameCompiler b).BracesMeet Builtin.deposit ↔
            (openNameCompiler b).BracesMeet braced)) := by
  obtain ⟨b, hread, _⟩ := openName_read
  have hoffers : ∀ x ∈ [Template.Offer.base b], x.Read := List.forall_mem_singleton.2 ⟨_, _, hread⟩
  have hhandlers : ∀ j h, Builtin.handlers.get? j = some h → h.Known := fun _ _ hget =>
    .inl (Law.get?_builtin hget)
  exact ⟨b, hread, miscomposes_agree_iff (c := openNameCompiler b) Builtin.depositRulebook_load
    .builtin hoffers rfl hhandlers Builtin.deposit_read braced_read rfl⟩

/-- A brace at the end of the payer's name makes the composition fail. -/
theorem brace_miscomposes : ∃ b,
    Template.Base.read openName.text openName.name = .ok b ∧
      (openNameCompiler b).parse Builtin.depositDocument.text = .ok Builtin.deposit ∧
      (openNameCompiler b).parse bracedDocument.text = .ok braced ∧
      Artifact.pairOfDefinition Builtin.deposit = Artifact.pairOfDefinition braced ∧
      ¬(openNameCompiler b).Miscomposes Builtin.deposit ∧
      (openNameCompiler b).Miscomposes braced := by
  obtain ⟨b, hread, hb⟩ := openName_read
  have hoffer : (Template.Offer.base b).Read := ⟨_, _, hread⟩
  refine ⟨b, hread, Builtin.deposit_read, braced_read, rfl, ?_, ?_⟩
  · rw [miscomposes_openName_iff hoffer hb Builtin.deposit_read rfl]
    decide +kernel
  · rw [miscomposes_openName_iff hoffer hb braced_read rfl]
    decide +kernel

end Compiler
end Covenant
