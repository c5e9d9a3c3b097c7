import Covenant.Proofs.Compiler.Completeness
import Covenant.Proofs.Text.Safe

/-! Lexical safety of what is generated. Whatever the user wrote, a text that is filled in
stays where it is put: it ends no line, no quotation and no comment, and it starts no slot
marker. Names that are written as they are have been checked to be identifiers. -/
namespace Covenant.Artifact

open Law (Context)
open Rules (Rulebook RuleSet)
open Template (Resolved)

/-- Text that can end neither a line nor a quotation nor a block comment, and that holds
no slot marker. -/
structure LexicallySafe (cs : List Char) : Prop where
  noBackslash : '\\' ∉ cs
  noControl : ∀ c ∈ cs, Text.isControl c = false
  noMarker : ¬['{', '{'] <:+: cs
  noCommentEnd : ¬['*', '/'] <:+: cs
  evenQuotes : 2 ∣ cs.count '"'

theorem lexicallySafe_of_contained {cs : List Char} (h : Text.Contained cs) :
    LexicallySafe cs where
  noBackslash := fun hmem => (h.clean.plain _ hmem).1 rfl
  noControl := fun c hc => (h.clean.plain c hc).2
  noMarker := (Text.isChain_mustPart_iff.1 h.clean.parted).1
  noCommentEnd := (Text.isChain_mustPart_iff.1 h.clean.parted).2
  evenQuotes := Nat.dvd_of_mod_eq_zero (Text.oddQuotes_eq_false_iff.1 h.quotes)

/-- The names that are written into code are identifiers, those of the definition and
those of the rule set. -/
structure Named (ctx : Context) : Prop where
  contractType : Ident.isIdent ctx.definition.contractType = true
  jurisdiction : Ident.isIdent ctx.definition.jurisdiction = true
  triggers : ∀ c ∈ ctx.definition.conditions, Ident.isIdent c.trigger = true
  actions : ∀ c ∈ ctx.definition.conditions, Ident.isIdent c.action = true
  requirements : ∀ id ∈ ctx.requirements, Ident.isIdent id = true
  clauses : ∀ id ∈ ctx.rules.mandatoryClauses, Ident.isIdent id = true
  timeLimits : ∀ name ∈ ctx.rules.timeLimits.keys, Ident.isIdent name = true
  constraints : ∀ name ∈ ctx.rules.constraints.keys, Ident.isIdent name = true

theorem Identified.named {ctx : Context} (h : Identified ctx) (hs : ctx.rules.WellFormed) :
    Named ctx where
  contractType := h.contractType
  jurisdiction := h.jurisdiction
  triggers := fun c hc => (h.conditions c hc).trigger
  actions := fun c hc => (h.conditions c hc).action
  requirements := h.requirements
  clauses := hs.clauses
  timeLimits := by
    intro name hname
    obtain ⟨e, he, rfl⟩ := List.mem_map.1 hname
    exact (hs.timeLimits e he).1
  constraints := by
    intro name hname
    obtain ⟨e, he, rfl⟩ := List.mem_map.1 hname
    exact (hs.constraints e he).1

/-- A fill that is neither the version of the template nor one of its presets is a fact,
and has been contained as one. -/
theorem contained_build {ctx : Context} {template : Resolved} {r : Law.Regime} {f : Fills}
    (hctx : Identified ctx) (hr : r.Contained) (hf : Fills.build ctx template r.handler = .ok f)
    {slot : String} {fill : Fill} (hget : f.get? slot = some fill)
    (hversion : slot ≠ "template_version") (hpreset : slot ∉ template.presets.keys) :
    fill.Contained := by
  rcases List.mem_append.1 ((get?_build hf).1 hget) with hfact | hmem
  · exact contained_facts template hctx hr (slot, fill) hfact hversion
  · obtain ⟨e, he, heq⟩ := List.mem_map.1 hmem
    cases heq
    exact absurd (List.mem_map_of_mem he) hpreset

/-- A slot with statements is neither that of the version nor preset: both are scalars. -/
theorem fact_of_block {ctx : Context} {template : Resolved} {h : Law.Handler} {f : Fills}
    (hf : Fills.build ctx template h = .ok f) {slot : String} {lines : List String}
    (hget : f.get? slot = some (.block lines)) :
    slot ≠ "template_version" ∧ slot ∉ template.presets.keys := by
  have hscalar : ∀ text, (slot, Fill.scalar text) ∉ facts ctx template h ++ presetFills template := by
    intro text hmem
    rw [← get?_build hf, hget] at hmem
    cases hmem
  constructor
  · rintro rfl
    exact hscalar template.provenance.text (by simp [facts, scalars])
  · intro hpreset
    obtain ⟨⟨_, text⟩, he, rfl⟩ := List.mem_map.1 hpreset
    exact hscalar text (List.mem_append_right _ (List.mem_map_of_mem he))

/-- Whatever an accepted definition holds, all that is filled in for it with a built-in
handler is lexically safe, but for what the templates themselves give. -/
theorem build_lexicallySafe {rules : Rulebook} {vocabulary : Vocabulary}
    (hvocabulary : vocabulary.Built) {source : String} {d : Definition}
    (hd : Definition.read rules vocabulary source = .ok d) {texts : List String}
    {loaded : Rulebook} (hload : Rulebook.load texts = .ok loaded) {j t : String} {s : RuleSet}
    (hs : loaded.lookup j t = some s) {id : String} {h : Law.Handler}
    (hh : Builtin.handlers.get? id = some h) {template : Resolved} {f : Fills}
    (hf : Fills.build ⟨d, s⟩ template h = .ok f) :
    (∀ slot text, f.get? slot = some (.scalar text) → slot ≠ "template_version" →
        slot ∉ template.presets.keys → LexicallySafe text.toList) ∧
      (∀ slot lines, f.get? slot = some (.block lines) → ∀ l ∈ lines, LexicallySafe l.toList) ∧
      Named ⟨d, s⟩ := by
  have hformed := (Rulebook.lookup_sound (Rulebook.sound_of_load hload) hs).1
  have hctx := Builtin.identified_of_accepted (Definition.accepted_of_read hd)
    hvocabulary.verbsNamed hformed
  obtain ⟨r, hr, rfl⟩ := Law.get?_builtin hh
  have hcontained := @contained_build _ template _ _ hctx (Law.contained_builtin hr) hf
  refine ⟨fun slot text hget hversion hpreset => ?_, fun slot lines hget l hl => ?_,
    hctx.named hformed⟩
  · exact lexicallySafe_of_contained (hcontained hget hversion hpreset)
  · obtain ⟨hversion, hpreset⟩ := fact_of_block hf hget
    exact lexicallySafe_of_contained (hcontained hget hversion hpreset l hl)

example : Text.safe "\"*/\x7b\x7b\\" = "'* /\x7b \x7b/" := by decide +kernel

/-! A payer whose name is all that safe text is not. -/

def hostileDocument : Builtin.Document :=
  ⟨"hostile.yaml", [
    "contract:",
    "  type: escrow",
    "  jurisdiction: india",
    "  parties:",
    "    - \x7bname: '\"*/\x7b\x7b\\', role: payer\x7d",
    "    - \x7bname: B, role: payee\x7d",
    "  conditions:",
    "    - \x7btrigger: delivery_confirmed, action: release_funds\x7d",
    "  legal_requirements: [kyc_verification]"]⟩

def hostile : Definition :=
  ⟨"escrow", "india", [⟨"\"*/\x7b\x7b\\", ⟨"payer", .payer⟩, none, true⟩,
    ⟨"B", ⟨"payee", .payee⟩, none, true⟩],
    [⟨"delivery_confirmed", "release_funds", none, ∅⟩], ["kyc_verification"], {}⟩

def kycRules : RuleSet := ⟨"india", "escrow", ["kyc_verification"], [], ∅, ∅⟩

/-- A template of nothing. -/
def blank : Resolved := ⟨⟨"escrow", "1", ∅, ∅, ⟨⟨[], []⟩, ⟨[], []⟩, ⟨[], []⟩⟩⟩, none, "india"⟩

theorem hostile_read :
    Definition.read Builtin.depositRulebook .builtin hostileDocument.text = .ok hostile := by
  apply Builtin.definition_of_spelled
  · repeat (apply Text.Spelled.cons; exact rfl)
    exact .nil
  · decide +kernel

theorem hostile_lexicallySafe :
    Rulebook.load [Builtin.depositRules] = .ok Builtin.depositRulebook ∧
      Builtin.depositRulebook.lookup "india" "escrow" = some kycRules ∧
      Definition.read Builtin.depositRulebook .builtin hostileDocument.text = .ok hostile ∧
      ∃ h f, Builtin.handlers.get? "india" = some h ∧
        Fills.build ⟨hostile, kycRules⟩ blank h = .ok f ∧
        f.get? "payer_name" = some (.scalar "'* /\x7b \x7b/") ∧
        LexicallySafe "'* /\x7b \x7b/".toList := by
  have hlookup : Builtin.depositRulebook.lookup "india" "escrow" = some kycRules := by
    decide +kernel
  obtain ⟨r, _, hh⟩ := Builtin.handlers_get? (j := "india") (by decide)
  obtain ⟨f, hf⟩ := exists_build ⟨hostile, kycRules⟩ (r := blank) r.handler
    fun slot hslot => (List.not_mem_nil hslot).elim
  have hname : partyName hostile.payer = "'* /\x7b \x7b/" := by decide +kernel
  have hget : f.get? "payer_name" = some (.scalar "'* /\x7b \x7b/") := by
    rw [get?_build hf, ← hname]
    simp [facts, scalars]
  exact ⟨Builtin.depositRulebook_load, hlookup, hostile_read, _, f, hh, hf, hget,
    (build_lexicallySafe .builtin hostile_read Builtin.depositRulebook_load hlookup hh hf).1 _ _
      hget (by decide) (by decide)⟩

end Covenant.Artifact
