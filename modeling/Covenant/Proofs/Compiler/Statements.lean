import Covenant.Proofs.Artifact.Placement
import Covenant.Proofs.Compiler.Completeness

/-! Lines of generated statements in the built-in templates. Two blocks of them are not
standalone, since they follow another block on the next line: the constants for
constraints, and the initialization of the jurisdiction. Every other block gives each line
of a statement a line of its own. These two do so only for a single statement; several
share one line, and where the first of them is a comment, the comment swallows the rest. -/
namespace Covenant.Builtin

open Artifact
open Template (Segment Block Resolved lastLine)
open Text (lines)

/-! ### Bodies around a block -/

/-- A body of an artifact is what stands before a block, what the block writes, and what
stands after it. -/
theorem around_of_made {handlers : Law.Handlers} {d : Definition} {r : Resolved}
    {rules : Rules.RuleSet} {h : Law.Handler} {f : Fills} {bodies : Bodies String}
    (hmade : Made handlers d r rules h f bodies) {role : BodyRole} {before after : List Segment}
    {b : Block} (hbody : (r.body role).segments = before ++ .block b :: after) :
    ∃ pre content post, f.renderSegments r before = .ok pre ∧ f.blockContent r b = .ok content ∧
      f.renderSegments r after = .ok post ∧
      (bodies.get role).toList = pre ++ regionOf b content ++ post := by
  obtain ⟨text, htext, _, hrole⟩ := renderBody_eq_ok_iff.1 (hmade.rendered role)
  rw [Fills.render, hbody] at htext
  obtain ⟨pre, rest, hpre, hrest, rfl⟩ := Fills.renderSegments_append.1 htext
  obtain ⟨region, post, hregion, hpost, rfl⟩ := Fills.renderSegments_cons.1 hrest
  obtain ⟨content, hcontent, rfl⟩ := Outcome.map_eq_ok_iff.1 hregion
  refine ⟨pre, content, post, hpre, hcontent, hpost, ?_⟩
  rw [hrole, String.toList_ofList, regionOf, List.append_assoc]

theorem statements_of_build {ctx : Law.Context} {r : Resolved} {h : Law.Handler} {f : Fills}
    (hf : Fills.build ctx r h = .ok f) {slot : String} {ss : List String}
    (hss : (slot, ss) ∈ blocks ctx h) : f.statements slot = .ok ss := by
  have hfact : (slot, Fill.block ss) ∈ facts ctx r h :=
    List.mem_append_right _ (List.mem_map.2 ⟨_, hss, rfl⟩)
  rw [Fills.statements, (get?_build hf).2 (List.mem_append_left _ hfact)]

/-- A template that is resolved from the built-in bases has one of them. -/
theorem baseFor_of_resolve {c : Compiler} (hbases : c.templates.bases = templates.bases)
    {contractType jurisdiction : String} {r : Resolved}
    (h : c.templates.resolve contractType jurisdiction = .ok r) :
    BaseFor (Ident.normalize contractType) r.base := by
  have hget := (Template.Library.resolve_eq_ok_iff.1 h).1
  rw [Template.Library.get?, hbases] at hget
  exact templates_holds.baseFor hget

/-- When a definition compiles with the built-in bases, whatever the overrides, handlers
and rules, the statements of a block have lines of their own exactly when the block is not
one of the two that follow another block, or it has no statements, or a single one. -/
theorem compile_onOwnLines_iff {c : Compiler} (hbases : c.templates.bases = templates.bases)
    {d : Definition} {a : Artifact} (hcompile : c.compile d = .ok a) :
    ∃ rules r h f, c.rules.lookup d.jurisdiction d.contractType = some rules ∧
      c.templates.resolve d.contractType d.jurisdiction = .ok r ∧
      c.handlers.get? d.jurisdiction = some h ∧ Fills.build ⟨d, rules⟩ r h = .ok f ∧
      ∀ role before b after, (r.body role).segments = before ++ .block b :: after →
        ∃ statements pre content post, f.statements b.name.value = .ok statements ∧
          f.renderSegments r before = .ok pre ∧ f.blockContent r b = .ok content ∧
          f.renderSegments r after = .ok post ∧
          (a.bodies.get role).toList = pre ++ regionOf b content ++ post ∧
          (OnOwnLines (indentOf b pre) pre (regionOf b content) post
              (statements.flatMap fun s => lines s.toList) ↔
            b.name.value ∉ runOnBlocks ∨ statements = [] ∨ Single content) := by
  obtain ⟨rules, r, hrules, hresolve, hcompose⟩ := Compiler.compile_eq_ok_iff.1 hcompile
  obtain ⟨h, f, bodies, hmade, rfl⟩ := compose_eq_ok_iff.1 hcompose
  refine ⟨rules, r, h, f, hrules, hresolve, hmade.handler, hmade.built, ?_⟩
  intro role before b after hbody
  obtain ⟨pre, content, post, hpre, hcontent, hpost, htext⟩ := around_of_made hmade hbody
  obtain ⟨statements, hstatements, _, _, hsame⟩ := Fills.blockContent_eq_ok_iff.1 hcontent
  have hbase := (baseFor_of_resolve hbases hresolve).bodies _ (Template.mem_toList r.base.bodies role)
  have hbody' : (r.base.bodies.get role).segments = before ++ .block b :: after := hbody
  have hlaid := hbase.laidOut
  rw [hbody'] at hlaid
  have hstandalone : b.standalone = !runOnBlocks.contains b.name.value := by
    refine hbase.standalone b (Segment.mem_blocks.2 ?_)
    rw [hbody']
    exact List.mem_append_right _ List.mem_cons_self
  have hlines : content.statements.flatMap lines = statements.flatMap fun s => lines s.toList := by
    rw [hsame, List.flatMap_map]
  have hplaced := (placed_of_isLaidOut hlaid hpre hcontent hpost).onOwnLines_iff
  refine ⟨statements, pre, content, post, hstatements, hpre, hcontent, hpost, htext, ?_⟩
  rw [← hlines, hplaced, hstandalone, hsame]
  simp

/-! Rules with a fee that is no whole number and a ceiling of amounts. -/

def feeSource : String :=
  "\x7bus: \x7bescrow: \x7blegal_requirements: [kyc_verification], " ++
    "constraints: \x7bfee_rate: 1.5, max_amount: 5\x7d\x7d\x7d\x7d"

def feeRules : Rules.RuleSet :=
  ⟨"us", "escrow", ["kyc_verification"], [], ∅,
    Table.ofList [("fee_rate", .finite false 6755399441055744 1022), ("max_amount", .ofNat 5)]⟩

def feeRulebook : Rules.Rulebook := ⟨Table.ofList [("us", Table.ofList [("escrow", feeRules)])]⟩

def feeDocument : Document :=
  ⟨"fee.yaml", [
    "contract:",
    "  type: escrow",
    "  jurisdiction: us",
    "  parties:",
    "    - \x7bname: A, role: payer\x7d",
    "    - \x7bname: B, role: payee\x7d",
    "  conditions:",
    "    - \x7btrigger: delivery_confirmed, action: release_funds\x7d",
    "  legal_requirements: [kyc_verification]"]⟩

def fee : Definition :=
  ⟨"escrow", "us", [⟨"A", ⟨"payer", .payer⟩, none, true⟩, ⟨"B", ⟨"payee", .payee⟩, none, true⟩],
    [⟨"delivery_confirmed", "release_funds", none, ∅⟩], ["kyc_verification"], {}⟩

def feeCompiler (templates : Template.Library) (handlers : Law.Handlers) : Compiler :=
  ⟨feeRulebook, templates, Vocabulary.builtin, handlers⟩

theorem feeRulebook_loaded : Rules.Rulebook.load [feeSource] = .ok feeRulebook := by
  decide +kernel

theorem feeRulebook_lookup : feeRulebook.lookup "us" "escrow" = some feeRules := by
  decide +kernel

theorem fee_read : Definition.read feeRulebook Vocabulary.builtin feeDocument.text = .ok fee := by
  apply definition_of_spelled
  · repeat (apply Text.Spelled.cons; exact rfl)
    exact .nil
  · decide +kernel

theorem fee_compiles : ∃ a, (feeCompiler templates handlers).compile fee = .ok a :=
  @compile_of_holds (feeCompiler templates handlers) _ _ templates_holds rfl
    (Rules.Rulebook.sound_of_load feeRulebook_loaded) Vocabulary.Built.builtin.verbsNamed _ _
    fee_read (List.mem_of_elem_eq_true rfl) (List.mem_of_elem_eq_true rfl)

/-- The requirement of the contract is registered on a line of its own. -/
theorem fee_requirement_onOwnLine : ∃ a r, (feeCompiler templates handlers).compile fee = .ok a ∧
    templates.resolve "escrow" "us" = .ok r ∧
    ∀ role before b after, (r.body role).segments = before ++ .block b :: after →
      b.name.value = "requirement_registration" → ∃ pre content post,
        (a.bodies.get role).toList = pre ++ regionOf b content ++ post ∧
        OnOwnLines (indentOf b pre) pre (regionOf b content) post
          (["legalRequirements.push(\"kyc_verification\");"].flatMap fun s => lines s.toList) := by
  obtain ⟨a, ha⟩ := fee_compiles
  obtain ⟨rules, r, h, f, hrules, hr, _, hf, hblocks⟩ := compile_onOwnLines_iff rfl ha
  refine ⟨a, r, ha, hr, fun role before b after hbody hname => ?_⟩
  obtain ⟨ss, pre, content, post, hss, _, _, _, htext, hiff⟩ := hblocks role before b after hbody
  obtain rfl := Option.some.inj (feeRulebook_lookup.symm.trans hrules)
  have hvalue : (Law.Context.requirements ⟨fee, feeRules⟩).map registerRequirement =
      ["legalRequirements.push(\"kyc_verification\");"] := by decide +kernel
  have hmem : ("requirement_registration", ["legalRequirements.push(\"kyc_verification\");"]) ∈
      blocks ⟨fee, feeRules⟩ h := by simp [blocks, hvalue]
  rw [hname, statements_of_build hf hmem] at hss
  obtain rfl := Except.ok.inj hss
  exact ⟨pre, content, post, htext, hiff.2 (.inl (by rw [hname]; decide))⟩

/-- The content of a block of two short statements that nothing else is in. -/
theorem renderWithin_pair {c : BlockContent} {s t : List Char} (hbase : c.base.all Text.isBlank = true)
    (hextension : c.extension = none) (hstatements : c.statements = [s, t])
    (hs : pieceOf s = [s]) (ht : pieceOf t = [t]) : c.renderWithin = s ++ ' ' :: t := by
  have hpieces : c.pieces = [s, t] := by
    rw [pieces_eq, hextension, hstatements, List.flatMap_append, List.flatMap_cons,
      pieceOf_of_blank hbase, List.flatMap_cons, List.flatMap_singleton, hs, ht]
    rfl
  rw [BlockContent.renderWithin, hpieces, List.intercalate_cons_cons, List.intercalate_singleton]
  simp

example : BlockContent.renderWithin ⟨['\n'], none, ["a;".toList, "b;".toList]⟩ = "a; b;".toList := by
  decide +kernel

/-- Two statements of a block that follows another block stand on one line. -/
theorem exists_shared_line {handlers : Law.Handlers} {d : Definition} {r : Resolved}
    {rules : Rules.RuleSet} {h : Law.Handler} {f : Fills} {bodies : Bodies String}
    (hmade : Made handlers d r rules h f bodies) {type : String} (hfor : BaseFor type r.base)
    (hproblems : r.base.problems = []) (hoverlay : r.overlay = none) {slot : String}
    (hslot : slot ∈ runOnBlocks) {s t : String} (hstatements : f.statements slot = .ok [s, t])
    (hs : pieceOf s.toList = [s.toList]) (ht : pieceOf t.toList = [t.toList])
    (hnewline : '\n' ∉ (s ++ " " ++ t).toList) :
    ∃ role indent, Template.isSpacing indent = true ∧
      indent ++ (s ++ " " ++ t).toList ∈ lines (bodies.get role).toList := by
  have hdeclared : ∀ slot ∈ runOnBlocks, slots.get? slot = some .block := by decide +kernel
  obtain ⟨role, ref, href, rfl, hkind⟩ :=
    Template.Base.exists_reference_of_declared hproblems (hfor.slots ▸ hdeclared slot hslot)
  obtain ⟨b, hb, hname⟩ := Template.Markup.exists_block_of_reference href hkind
  rw [← hname] at hslot hstatements
  obtain ⟨before, after, hbody⟩ := List.append_of_mem hb
  have hbody : (r.body role).segments = before ++ .block b :: after := hbody
  obtain ⟨pre, content, post, hpre, hcontent, hpost, htext⟩ := around_of_made hmade hbody
  have hfits := hfor.bodies _ (Template.mem_toList r.base.bodies role)
  have hlaid := hfits.laidOut
  rw [show (r.base.bodies.get role).segments = _ from hbody] at hlaid
  have hplaced := placed_of_isLaidOut hlaid hpre hcontent hpost
  have hstandalone : b.standalone = false := by
    rw [hfits.standalone b (Segment.mem_blocks.2 hb), List.contains_iff_mem.2 hslot]
    rfl
  obtain ⟨_, hblank, hhead⟩ := hplaced.within hstandalone
  have hindent := hplaced.indent
  rw [indentOf, hstandalone, if_neg Bool.false_ne_true] at hindent
  obtain ⟨ss, hss, _, hextension, hsame⟩ := Fills.blockContent_eq_ok_iff.1 hcontent
  rw [hstatements] at hss
  obtain rfl := Except.ok.inj hss
  rw [Resolved.extension?, hoverlay] at hextension
  have hregion : regionOf b content = (s ++ " " ++ t).toList := by
    rw [regionOf, hstandalone, if_neg Bool.false_ne_true,
      renderWithin_pair hblank hextension hsame hs ht]
    simp
  refine ⟨role, lastLine pre, hindent, ?_⟩
  rw [htext, hregion]
  exact mem_lines_of_region hnewline hhead

/-- The comment that stands for the fee swallows the constant for the ceiling. -/
theorem fee_ceiling_in_comment :
    Code.constraintConstants feeRules =
        ["// fee_rate = 1.5 (not representable as uint256)",
          "uint256 public constant MAX_AMOUNT = 5;"] ∧
      ∃ a role indent, (feeCompiler templates handlers).compile fee = .ok a ∧
        Template.isSpacing indent = true ∧
        indent ++ ("// fee_rate = 1.5 (not representable as uint256)" ++ " " ++
          "uint256 public constant MAX_AMOUNT = 5;").toList ∈ lines (a.bodies.get role).toList := by
  have hstatements : Code.constraintConstants feeRules =
      ["// fee_rate = 1.5 (not representable as uint256)",
        "uint256 public constant MAX_AMOUNT = 5;"] := by decide +kernel
  obtain ⟨a, ha⟩ := fee_compiles
  obtain ⟨rules, r, hrules, hresolve, hcompose⟩ := Compiler.compile_eq_ok_iff.1 ha
  obtain ⟨h, f, bodies, hmade, rfl⟩ := compose_eq_ok_iff.1 hcompose
  obtain rfl := Option.some.inj (feeRulebook_lookup.symm.trans hrules)
  have hresolve : templates.resolve "escrow" "us" = .ok r := hresolve
  obtain ⟨hbase, hoverlay, _⟩ := Template.Library.resolve_eq_ok_iff.1 hresolve
  have hfor := templates_holds.baseFor hbase
  have hproblems := (templates_holds.sound.bases _ _ hbase).2
  have hnone : r.overlay = none := by
    rw [hoverlay, Template.Library.getOverride?]
    exact templates_holds.noOverlay _ _ (by decide +kernel)
  have hmem : ("constraint_constants", Code.constraintConstants feeRules) ∈
      blocks ⟨fee, feeRules⟩ h := by simp [blocks]
  have hcontent := statements_of_build hmade.built hmem
  rw [hstatements] at hcontent
  obtain ⟨role, indent, hindent, hline⟩ := exists_shared_line hmade hfor hproblems hnone
    (by decide) hcontent (by decide +kernel) (by decide +kernel) (by decide +kernel)
  exact ⟨hstatements, _, role, indent, ha, hindent, hline⟩

end Covenant.Builtin
