import Covenant.Proofs.Builtin.Constants
import Covenant.Proofs.Compiler.Statements
import Covenant.Proofs.Law.Reads

/-! Whether a contract declares the rule constants that it reads. The built-in handlers read a
constant only when the rules give it; the built-in overrides add fixed text, and that for insurance
in the European Union reads the number of cooling-off days whether the rules give one or not. -/
namespace Covenant.Builtin

open Artifact
open Rules (Rulebook RuleSet)
open Code (declaredNames ruleConstants declares reads)
open Template (Segment Block Inline Markup Resolved)

/-! ### What overrides add -/

theorem renderInlines_plain {f : Fills} {is : List Inline}
    (h : is.flatMap Inline.references = []) : f.renderInlines is = .ok (plainText is) := by
  induction is with
  | nil => rfl
  | cons i is ih =>
    obtain ⟨hi, his⟩ := List.append_eq_nil_iff.1 h
    cases i with
    | text cs => rw [Fills.renderInlines, ih his]; rfl
    | slot name => cases hi

/-- What an override adds to a block is its text, and reads what the built-in override of the
contract type reads there. -/
theorem extension_reads {t j : String} {r : Resolved} (hr : templates.resolve t j = .ok r)
    {f : Fills} {b : Block} {content : BlockContent} (hcontent : f.blockContent r b = .ok content)
    {code : List Char} (hcode : content.extension = some code) :
    ((Ident.normalize t, Ident.normalize j) ∈ overriddenPairs) ∧
      (b.name.value, reads code) ∈ overrideReads (Ident.normalize t) := by
  obtain ⟨_, _, _, hextension, _⟩ := Fills.blockContent_eq_ok_iff.1 hcontent
  cases htext : r.extension? b.name.value with
  | none =>
    rw [htext, hcode] at hextension
    cases hextension
  | some text =>
    rw [htext] at hextension
    obtain ⟨e, he, hc⟩ := hextension
    rw [renderInlines_plain (references_of_extension hr htext)] at he
    obtain rfl := Except.ok.inj he
    obtain rfl := Option.some.inj (hc.symm.trans hcode)
    obtain ⟨_, hoverlay, _⟩ := Template.Library.resolve_eq_ok_iff.1 hr
    obtain ⟨o, ho, hblock⟩ := Option.bind_eq_some_iff.1 htext
    rw [hoverlay] at ho
    have hfor := templates_holds.overrideFor ho
    refine ⟨?_, ?_⟩
    · by_contra hpair
      have hnone := templates_holds.noOverlay (Ident.normalize t) (Ident.normalize j)
        fun hmem => hpair (List.mem_reverse.1 hmem)
      rw [Template.Library.getOverride?, hnone] at ho
      cases ho
    · have hmem := List.mem_map_of_mem (f := fun e => (e.1, readsOf e.2)) (Table.mem_entries.2 hblock)
      rwa [hfor.reads, hfor.contractType] at hmem

/-- The only constant that an override reads is the number of cooling-off days. -/
theorem extension_constant {t j : String} {r : Resolved} (hr : templates.resolve t j = .ok r)
    {f : Fills} {b : Block} {content : BlockContent} (hcontent : f.blockContent r b = .ok content)
    {code : List Char} (hcode : content.extension = some code) {constant : String}
    (hconstant : constant ∈ reads code) :
    constant = "COOLING_OFF_DAYS" ∧ Ident.normalize t = "insurance" ∧ Ident.normalize j = "eu" := by
  obtain ⟨hpair, hreads⟩ := extension_reads hr hcontent hcode
  unfold overrideReads at hreads
  split at hreads
  · next ht =>
    rw [List.mem_singleton, Prod.mk.injEq] at hreads
    rw [hreads.2, List.mem_singleton] at hconstant
    refine ⟨hconstant, ht, ?_⟩
    rw [ht] at hpair
    simpa [overriddenPairs] using hpair
  · rw [List.mem_singleton, Prod.mk.injEq] at hreads
    rw [hreads.2] at hconstant
    cases hconstant

/-- The override for insurance in the European Union is found, and adds to its block what reads the
number of cooling-off days. -/
theorem exists_extension_reads {t j : String} {r : Resolved} (hr : templates.resolve t j = .ok r)
    (ht : Ident.normalize t = "insurance") (hj : Ident.normalize j = "eu") {f : Fills} {b : Block}
    (hb : b.name.value = "jurisdiction_functions") {content : BlockContent}
    (hcontent : f.blockContent r b = .ok content) :
    ∃ code, content.extension = some code ∧ "COOLING_OFF_DAYS" ∈ reads code := by
  obtain ⟨o, ho, hfor⟩ := templates_holds.overlay ("insurance", "eu")
    (List.mem_reverse.2 (List.mem_of_elem_eq_true rfl))
  obtain ⟨_, hoverlay, _⟩ := Template.Library.resolve_eq_ok_iff.1 hr
  rw [Template.Library.getOverride?, ht, hj, ho] at hoverlay
  have hentry : ("jurisdiction_functions", ["COOLING_OFF_DAYS"]) ∈
      o.blocks.entries.map fun e => (e.1, readsOf e.2) := by
    rw [hfor.reads, hfor.contractType]
    exact List.mem_singleton.2 rfl
  obtain ⟨⟨slot, text⟩, he, heq⟩ := List.mem_map.1 hentry
  obtain ⟨rfl, hreads⟩ := Prod.mk.inj heq
  have htext : r.extension? b.name.value = some text := by
    rw [Resolved.extension?, hoverlay, hb]
    exact Table.mem_entries.1 he
  obtain ⟨_, _, _, hextension, _⟩ := Fills.blockContent_eq_ok_iff.1 hcontent
  rw [htext] at hextension
  obtain ⟨e, he, hc⟩ := hextension
  rw [renderInlines_plain (references_of_extension hr htext)] at he
  obtain rfl := Except.ok.inj he
  refine ⟨_, hc, ?_⟩
  rw [show reads (plainText text.inlines) = _ from hreads]
  exact List.mem_singleton.2 rfl

/-! ### What a contract reads -/

/-- The blocks whose statements are those of the handler. -/
def handlerSlots : List String :=
  ["jurisdiction_state", "jurisdiction_initialization", "compliance_verification",
    "dispute_handling", "jurisdiction_functions"]

/-- What the override and the handler add to a block. -/
def contributed (slot : String) (content : BlockContent) : List (List Char) :=
  content.extension.toList ++ if slot ∈ handlerSlots then content.statements else []

/-- The statements of those blocks are the lines of the handler. -/
theorem mem_contractLines {ctx : Law.Context} {r : Resolved} {h : Law.Handler} {f : Fills}
    (hf : Fills.build ctx r h = .ok f) {slot : String} (hslot : slot ∈ handlerSlots)
    {ss : List String} (hss : f.statements slot = .ok ss) {l : String} (hl : l ∈ ss) :
    l ∈ h.contractLines ctx := by
  have hlines : ∀ ss', (slot, ss') ∈ blocks ctx h → ss = ss' := fun ss' hmem =>
    Except.ok.inj (hss.symm.trans (statements_of_build hf hmem))
  simp only [handlerSlots, List.mem_cons, List.not_mem_nil, or_false] at hslot
  rcases hslot with rfl | rfl | rfl | rfl | rfl
  · rw [hlines (h.state ctx).declarations (by simp [blocks])] at hl
    simp [Law.Handler.contractLines, hl]
  · rw [hlines (h.state ctx).initialization (by simp [blocks])] at hl
    simp [Law.Handler.contractLines, hl]
  · rw [hlines (h.compliance ctx) (by simp [blocks])] at hl
    simp [Law.Handler.contractLines, hl]
  · rw [hlines (h.dispute ctx) (by simp [blocks])] at hl
    simp [Law.Handler.contractLines, hl]
  · rw [hlines (h.functions ctx) (by simp [blocks])] at hl
    simp [Law.Handler.contractLines, hl]

-- every built-in base has them
example : ∀ slot ∈ handlerSlots, slots.get? slot = some .block := by decide +kernel

/-- Whether the number of cooling-off days is declared, by its name in capitals. -/
theorem cooling_declared_iff {rules : RuleSet} (hformed : rules.WellFormed) :
    "COOLING_OFF_DAYS" ∈ declaredNames (ruleConstants rules) ↔
      declares rules "cooling_off_days" = true := by
  have hname : Ident.constantCase "cooling_off_days" = "COOLING_OFF_DAYS" := by decide +kernel
  rw [← hname]
  exact Code.constantCase_mem_iff hformed (by decide +kernel)

/-- An insurance contract of the European Union reads the number of cooling-off days. -/
theorem exists_cooling_read {d : Definition} {r : Resolved} {rules : RuleSet} {h : Law.Handler}
    {f : Fills} {bodies : Bodies String} (hmade : Made handlers d r rules h f bodies)
    (hresolve : templates.resolve d.contractType d.jurisdiction = .ok r)
    (ht : Ident.normalize d.contractType = "insurance") (hj : Ident.normalize d.jurisdiction = "eu") :
    ∃ b ∈ Segment.blocks (r.body .primary).segments, ∃ content code,
      f.blockContent r b = .ok content ∧ code ∈ contributed b.name.value content ∧
        "COOLING_OFF_DAYS" ∈ reads code := by
  have hfor := templates_holds.baseFor (Template.Library.resolve_eq_ok_iff.1 hresolve).1
  have hslot : "jurisdiction_functions" ∈
      (Segment.blocks (r.body .primary).segments).map (·.name.value) := by
    rw [show (Segment.blocks (r.body .primary).segments).map (·.name.value) = _ from hfor.blocks]
    exact List.mem_of_elem_eq_true rfl
  obtain ⟨b, hb, hname⟩ := List.mem_map.1 hslot
  obtain ⟨before, after, hbody⟩ := List.append_of_mem (Segment.mem_blocks.1 hb)
  obtain ⟨_, content, _, _, hcontent, _, _⟩ := around_of_made hmade hbody
  obtain ⟨code, hcode, hreads⟩ := exists_extension_reads hresolve ht hj hname hcontent
  exact ⟨b, hb, content, code, hcontent, List.mem_append_left _ (Option.mem_toList.2 hcode), hreads⟩

/-- Any other constant that is read is declared. -/
theorem declared_of_contributed {d : Definition} {r : Resolved} {rules : RuleSet} {h : Law.Handler}
    {f : Fills} {bodies : Bodies String} (hmade : Made handlers d r rules h f bodies)
    (hformed : rules.WellFormed) (hresolve : templates.resolve d.contractType d.jurisdiction = .ok r)
    {b : Block} {content : BlockContent} (hcontent : f.blockContent r b = .ok content)
    {code : List Char} (hcode : code ∈ contributed b.name.value content) {constant : String}
    (hconstant : constant ∈ reads code) :
    constant ∈ declaredNames (ruleConstants rules) ∨
      constant = "COOLING_OFF_DAYS" ∧ Ident.normalize d.contractType = "insurance" ∧
        Ident.normalize d.jurisdiction = "eu" := by
  rcases List.mem_append.1 hcode with hcode | hcode
  · exact .inr (extension_constant hresolve hcontent (Option.mem_toList.1 hcode) hconstant)
  · split at hcode
    · next hslot =>
      obtain ⟨ss, hss, _, _, hsame⟩ := Fills.blockContent_eq_ok_iff.1 hcontent
      rw [hsame] at hcode
      obtain ⟨l, hl, rfl⟩ := List.mem_map.1 hcode
      obtain ⟨name, hname, rfl⟩ := Law.reads_contractLines hmade.handler _
        (mem_contractLines hmade.built hslot hss hl) hconstant
      exact .inl ((Code.mem_declaredNames_iff hformed).2 ⟨name, hname, rfl⟩)
    · cases hcode

/-- Every rule constant that the handler or the override reads in the contract is declared by the
fills for its time limits and constraints. -/
def ReadsDeclared (r : Resolved) (f : Fills) : Prop :=
  ∃ limits constraints, f.statements "time_limit_constants" = .ok limits ∧
    f.statements "constraint_constants" = .ok constraints ∧
    ∀ b ∈ Segment.blocks (r.body .primary).segments, ∀ content, f.blockContent r b = .ok content →
      ∀ code ∈ contributed b.name.value content, ∀ constant ∈ reads code,
        constant ∈ declaredNames ((limits ++ constraints).map String.toList)

theorem readsDeclared_iff {ctx : Law.Context} {r : Resolved} {h : Law.Handler} {f : Fills}
    (hf : Fills.build ctx r h = .ok f) :
    ReadsDeclared r f ↔
      ∀ b ∈ Segment.blocks (r.body .primary).segments, ∀ content, f.blockContent r b = .ok content →
        ∀ code ∈ contributed b.name.value content, ∀ constant ∈ reads code,
          constant ∈ declaredNames (ruleConstants ctx.rules) := by
  have hlimits : f.statements "time_limit_constants" = .ok (Code.timeLimitConstants ctx.rules) :=
    statements_of_build hf (by simp [blocks])
  have hconstraints : f.statements "constraint_constants" = .ok (Code.constraintConstants ctx.rules) :=
    statements_of_build hf (by simp [blocks])
  constructor
  · rintro ⟨limits, constraints, hlimits', hconstraints', hreads⟩
    obtain rfl := Except.ok.inj (hlimits.symm.trans hlimits')
    obtain rfl := Except.ok.inj (hconstraints.symm.trans hconstraints')
    exact hreads
  · exact fun hreads => ⟨_, _, hlimits, hconstraints, hreads⟩

/-- When a definition compiles with the built-in templates and handlers under loaded rules, whatever
they are, each block of the contract stands in its text, and every rule constant that the handler or
the override reads there is declared by the fills for time limits and constraints, exactly when the
contract is no insurance in the European Union or the rules give a number of cooling-off days. -/
theorem reads_declared_iff {c : Compiler} (htemplates : c.templates = templates)
    (hhandlers : c.handlers = handlers) {texts : List String}
    (hload : Rulebook.load texts = .ok c.rules) {d : Definition} {a : Artifact}
    (hcompile : c.compile d = .ok a) :
    ∃ rules r h f, c.rules.lookup d.jurisdiction d.contractType = some rules ∧
      c.templates.resolve d.contractType d.jurisdiction = .ok r ∧
      c.handlers.get? d.jurisdiction = some h ∧ Fills.build ⟨d, rules⟩ r h = .ok f ∧
      (∀ before b after, (r.body .primary).segments = before ++ .block b :: after →
        ∃ pre content post, f.blockContent r b = .ok content ∧
          (a.bodies.get .primary).toList = pre ++ regionOf b content ++ post) ∧
      (ReadsDeclared r f ↔ (d.contractType = "insurance" → d.jurisdiction = "eu" →
        declares rules "cooling_off_days" = true)) := by
  obtain ⟨rules, r, hrules, hresolve, hcompose⟩ := Compiler.compile_eq_ok_iff.1 hcompile
  obtain ⟨h, f, bodies, hmade, rfl⟩ := compose_eq_ok_iff.1 hcompose
  rw [hhandlers] at hmade
  rw [htemplates] at hresolve
  obtain ⟨hformed, hj, ht⟩ := Rulebook.lookup_sound (Rulebook.sound_of_load hload) hrules
  have hpair := hmade.sameRules
  rw [pairOfRules, pairOfDefinition, Pair.mk.injEq, hj, ht] at hpair
  obtain ⟨hj, ht⟩ := hpair
  refine ⟨rules, r, h, f, hrules, htemplates ▸ hresolve, hhandlers ▸ hmade.handler, hmade.built,
    fun before b after hbody => ?_, ?_⟩
  · obtain ⟨pre, content, post, _, hcontent, _, htext⟩ := around_of_made hmade hbody
    exact ⟨pre, content, post, hcontent, htext⟩
  rw [readsDeclared_iff hmade.built]
  constructor
  · intro hdeclared hinsurance heu
    obtain ⟨b, hb, content, code, hcontent, hcode, hreads⟩ :=
      exists_cooling_read hmade hresolve (ht.trans hinsurance) (hj.trans heu)
    exact (cooling_declared_iff hformed).1 (hdeclared b hb content hcontent code hcode _ hreads)
  · intro hcooling b _ content hcontent code hcode constant hconstant
    rcases declared_of_contributed hmade hformed hresolve hcontent hcode hconstant with
      hdeclared | ⟨rfl, hinsurance, heu⟩
    · exact hdeclared
    · exact (cooling_declared_iff hformed).2 (hcooling (ht.symm.trans hinsurance) (hj.symm.trans heu))

/-- An escrow with a ceiling of amounts declares all constants that it reads. -/
theorem fee_reads_declared : ∃ a r h f, (feeCompiler templates handlers).compile fee = .ok a ∧
    templates.resolve "escrow" "us" = .ok r ∧ handlers.get? "us" = some h ∧
    Fills.build ⟨fee, feeRules⟩ r h = .ok f ∧ ReadsDeclared r f := by
  obtain ⟨a, ha⟩ := fee_compiles
  obtain ⟨rules, r, h, f, hrules, hr, hh, hf, _, hiff⟩ :=
    reads_declared_iff rfl rfl feeRulebook_loaded ha
  obtain rfl := Option.some.inj (feeRulebook_lookup.symm.trans hrules)
  exact ⟨a, r, h, f, ha, hr, hh, hf, hiff.2 fun hinsurance => absurd hinsurance (by decide)⟩

/-! Rules for insurance in the European Union without a number of cooling-off days. -/

def coverSource : String :=
  "\x7beu: \x7binsurance: \x7blegal_requirements: [gdpr_compliance]\x7d\x7d\x7d"

def coverRules : RuleSet := ⟨"eu", "insurance", ["gdpr_compliance"], [], ∅, ∅⟩

def coverRulebook : Rulebook := ⟨Table.ofList [("eu", Table.ofList [("insurance", coverRules)])]⟩

def coverDocument : Document :=
  ⟨"cover.yaml", [
    "contract:",
    "  type: insurance",
    "  jurisdiction: eu",
    "  parties:",
    "    - \x7bname: A, role: payer\x7d",
    "    - \x7bname: B, role: payee\x7d",
    "  conditions:",
    "    - \x7btrigger: claim_approved, action: pay_claim\x7d",
    "  legal_requirements: [gdpr_compliance]"]⟩

def cover : Definition :=
  ⟨"insurance", "eu", [⟨"A", ⟨"payer", .payer⟩, none, true⟩, ⟨"B", ⟨"payee", .payee⟩, none, true⟩],
    [⟨"claim_approved", "pay_claim", none, ∅⟩], ["gdpr_compliance"], {}⟩

def coverCompiler (templates : Template.Library) (handlers : Law.Handlers) : Compiler :=
  ⟨coverRulebook, templates, Vocabulary.builtin, handlers⟩

theorem coverRulebook_loaded : Rulebook.load [coverSource] = .ok coverRulebook := by
  decide +kernel

theorem coverRulebook_lookup : coverRulebook.lookup "eu" "insurance" = some coverRules := by
  decide +kernel

theorem cover_read :
    Definition.read coverRulebook Vocabulary.builtin coverDocument.text = .ok cover := by
  apply definition_of_spelled
  · repeat (apply Text.Spelled.cons; exact rfl)
    exact .nil
  · decide +kernel

/-- The contract reads a number of cooling-off days that it does not declare. -/
theorem cover_reads_undeclared : ∃ a r h f,
    (coverCompiler templates handlers).compile cover = .ok a ∧
    templates.resolve "insurance" "eu" = .ok r ∧ handlers.get? "eu" = some h ∧
    Fills.build ⟨cover, coverRules⟩ r h = .ok f ∧ ¬ReadsDeclared r f := by
  have hsound := Rulebook.sound_of_load coverRulebook_loaded
  obtain ⟨a, ha⟩ := @compile_of_holds (coverCompiler templates handlers) _ _ templates_holds rfl
    hsound Vocabulary.Built.builtin.verbsNamed _ _ cover_read (List.mem_of_elem_eq_true rfl)
    (List.mem_of_elem_eq_true rfl)
  obtain ⟨rules, r, hrules, hresolve, hcompose⟩ := Compiler.compile_eq_ok_iff.1 ha
  obtain ⟨h, f, bodies, hmade, rfl⟩ := compose_eq_ok_iff.1 hcompose
  obtain rfl := Option.some.inj (coverRulebook_lookup.symm.trans hrules)
  refine ⟨_, r, h, f, ha, hresolve, hmade.handler, hmade.built, fun hdeclared => ?_⟩
  obtain ⟨b, hb, content, code, hcontent, hcode, hread⟩ :=
    exists_cooling_read hmade hresolve (by decide +kernel) (by decide +kernel)
  have hmem := (readsDeclared_iff hmade.built).1 hdeclared b hb content hcontent code hcode _ hread
  rw [cooling_declared_iff (Rulebook.lookup_sound hsound hrules).1] at hmem
  exact absurd hmem (by decide +kernel)

end Covenant.Builtin
