import Covenant.Proofs.Builtin.Jurisdictions
import Covenant.Proofs.Compiler.Alike
import Covenant.Proofs.Compiler.Statements
import Covenant.Proofs.Definition.Rereading

/-! Free text and the lines of an artifact. The built-in compiler gives free text a line of its
own or a place in one, but a separator of lines or paragraphs that is in the text ends the line
there. Two artifacts for definitions that differ in free text only have as many lines, body by
body, exactly when what they show has as many separators in it. -/
namespace Covenant

open Artifact
open Text (lineEnds lineCount separators safe lineEnds_append lineEnds_safe)
open Builtin (textSlots textSlotsOf)

namespace Artifact

variable {d d' : Definition} {rules : Rules.RuleSet} {r : Template.Resolved} {h : Law.Handler}

/-! ### What is shown -/

/-- The separators in the free text that a body shows. -/
def shownSeparators (d : Definition) : BodyRole → Nat
  | .primary => separators (safe d.metadata.description) + separators (safe d.metadata.version) +
      separators (partyName d.payer) + separators (partyName d.payee)
  | .deploy => (d.parties.map fun p => separators (safe p.name)).sum
  | .test => 0

theorem lineEnds_partyName (p : Option Party) :
    lineEnds (partyName p).toList = separators (partyName p) :=
  Text.lineEnds_of_clean (contained_partyName p).clean

/-- A description that is made up has no line ends. -/
theorem lineEnds_description {name : String} (hname : lineEnds
      (Ident.pascalCase d.contractType ++ " contract governed by the law of " ++ name).toList = 0) :
    lineEnds (description d name).toList = separators (safe d.metadata.description) := by
  unfold description
  simp only
  split
  · next hempty =>
    have hnone : safe d.metadata.description = "" := by simpa using hempty
    rw [hname, hnone]
    rfl
  · exact lineEnds_safe _

theorem lineEnds_registerParty {p q : Party} (h : p.Alike q) :
    lineEnds (registerParty p).toList + separators (safe q.name) =
      lineEnds (registerParty q).toList + separators (safe p.name) := by
  unfold registerParty
  simp only [String.toList_append, lineEnds_append, lineEnds_safe, h.role, Party.addressOrZero,
    h.address, h.verificationRequired]
  omega

theorem registerParties_balance {ps qs : List Party} (h : List.Forall₂ Party.Alike ps qs) :
    ((ps.map registerParty).map fun s => lineEnds s.toList).sum +
        (qs.map fun q => separators (safe q.name)).sum =
      ((qs.map registerParty).map fun s => lineEnds s.toList).sum +
        (ps.map fun p => separators (safe p.name)).sum := by
  induction h with
  | nil => rfl
  | cons hpq _ ih =>
    have hhead := lineEnds_registerParty hpq
    simp only [List.map_cons, List.sum_cons] at ih ⊢
    omega

theorem lineEnds_of_fact {ctx : Law.Context} {f : Fills} (hf : Fills.build ctx r h = .ok f)
    {slot : String} {fill : Fill} (hfact : (slot, fill) ∈ facts ctx r h) :
    f.lineEnds slot = fill.lineEnds := by
  rw [Fills.lineEnds, (get?_build hf).2 (List.mem_append_left _ hfact)]
  rfl

theorem lineEnds_primary {f : Fills} (hf : Fills.build ⟨d, rules⟩ r h = .ok f)
    (hname : lineEnds (Ident.pascalCase d.contractType ++ " contract governed by the law of " ++
      safe h.displayName).toList = 0) :
    f.lineEndsOf (textSlotsOf .primary) = shownSeparators d .primary := by
  have hslot : ∀ slot t, (slot, t) ∈ scalars ⟨d, rules⟩ r h → f.lineEnds slot = lineEnds t.toList :=
    fun slot t hmem =>
      lineEnds_of_fact hf (List.mem_append_left _ (List.mem_map.2 ⟨(slot, t), hmem, rfl⟩))
  have hdescription := hslot "description" (description d (safe h.displayName)) (by simp [scalars])
  have hversion := hslot "definition_version" (safe d.metadata.version) (by simp [scalars])
  have hpayer := hslot "payer_name" (partyName d.payer) (by simp [scalars])
  have hpayee := hslot "payee_name" (partyName d.payee) (by simp [scalars])
  rw [lineEnds_description hname] at hdescription
  rw [lineEnds_safe] at hversion
  rw [lineEnds_partyName] at hpayer hpayee
  simp [Fills.lineEndsOf, textSlotsOf, shownSeparators, hdescription, hversion, hpayer, hpayee,
    Nat.add_assoc]

theorem lineEnds_deploy {f : Fills} (hf : Fills.build ⟨d, rules⟩ r h = .ok f) :
    f.lineEndsOf (textSlotsOf .deploy) =
      ((d.parties.map registerParty).map fun s => lineEnds s.toList).sum := by
  have hfact : ("party_registration", .block (d.parties.map registerParty)) ∈ facts ⟨d, rules⟩ r h := by
    simp [facts, blocks]
  have hparties := lineEnds_of_fact hf hfact
  simp only [Fills.lineEndsOf, textSlotsOf, List.map_cons, List.map_nil, List.sum_singleton, hparties]
  rfl

/-- The slots that take free text differ in line ends by what they show of it. -/
theorem textSlots_balance (hd : d.Alike d') {f f' : Fills}
    (hf : Fills.build ⟨d, rules⟩ r h = .ok f) (hf' : Fills.build ⟨d', rules⟩ r h = .ok f')
    (hname : lineEnds (Ident.pascalCase d.contractType ++ " contract governed by the law of " ++
      safe h.displayName).toList = 0) (role : BodyRole) :
    f.lineEndsOf (textSlotsOf role) + shownSeparators d' role =
      f'.lineEndsOf (textSlotsOf role) + shownSeparators d role := by
  cases role with
  | primary =>
    rw [lineEnds_primary hf hname, lineEnds_primary hf' (hd.contractType ▸ hname)]
    omega
  | deploy =>
    rw [lineEnds_deploy hf, lineEnds_deploy hf']
    exact registerParties_balance hd.parties
  | test => rfl

end Artifact

/-! ### Artifacts -/

namespace Builtin

open Template (Segment Inline Resolved)

theorem lineEnds_default : ∀ t ∈ contractTypes, ∀ regime ∈ regimes,
    lineEnds (Ident.pascalCase t ++ " contract governed by the law of " ++
      safe regime.displayName).toList = 0 := by
  decide +kernel

variable {c : Compiler} {d d' : Definition} {a a' : Artifact}

/-- What a definition compiles with is the same for a definition that differs in free text only. -/
theorem made_of_alike (hd : d.Alike d') (ha : c.compile d = .ok a) (ha' : c.compile d' = .ok a') :
    ∃ rules r h f f', c.templates.resolve d.contractType d.jurisdiction = .ok r ∧
      Made c.handlers d r rules h f a.bodies ∧ Made c.handlers d' r rules h f' a'.bodies := by
  obtain ⟨rules, r, hrules, hr, hcompose⟩ := Compiler.compile_eq_ok_iff.1 ha
  obtain ⟨rules', r', hrules', hr', hcompose'⟩ := Compiler.compile_eq_ok_iff.1 ha'
  rw [← hd.contractType, ← hd.jurisdiction] at hrules' hr'
  obtain rfl := Option.some.inj (hrules.symm.trans hrules')
  obtain rfl := Except.ok.inj (hr.symm.trans hr')
  obtain ⟨h, f, bodies, hmade, rfl⟩ := compose_eq_ok_iff.1 hcompose
  obtain ⟨h', f', bodies', hmade', rfl⟩ := compose_eq_ok_iff.1 hcompose'
  have hhandler := hmade'.handler
  rw [← hd.jurisdiction, hmade.handler] at hhandler
  obtain rfl := Option.some.inj hhandler
  exact ⟨rules, r, h, f, f', hr, hmade, hmade'⟩

section

variable {rules : Rules.RuleSet} {r : Resolved} {h : Law.Handler} {f f' : Fills}
  {bodies bodies' : Bodies String}

/-- Only the built-in contract types have a template. -/
theorem contractType_mem (hr : templates.resolve d.contractType d.jurisdiction = .ok r)
    (hmade : Made handlers d r rules h f bodies) : d.contractType ∈ contractTypes := by
  have hbase := (Template.Library.resolve_eq_ok_iff.1 hr).1
  have hmem := List.mem_reverse.1 (templates_holds.mem_types hbase)
  have hname : r.base.name = d.contractType := congrArg Pair.contractType hmade.sameTemplate
  rwa [← (templates_holds.baseFor hbase).name, hname] at hmem

/-- Two bodies differ in line ends by those in the slots for free text. -/
theorem body_balance (hd : d.Alike d')
    (hr : templates.resolve d.contractType d.jurisdiction = .ok r)
    (hmade : Made handlers d r rules h f bodies)
    (hmade' : Made handlers d' r rules h f' bodies') (role : BodyRole) :
    lineEnds (bodies.get role).toList + f'.lineEndsOf (textSlotsOf role) =
      lineEnds (bodies'.get role).toList + f.lineEndsOf (textSlotsOf role) := by
  obtain ⟨regime, _, rfl⟩ := Law.get?_builtin hmade.handler
  have hfor := templates_holds.baseFor (Template.Library.resolve_eq_ok_iff.1 hr).1
  have hbody := hfor.bodies _ (Template.mem_toList r.base.bodies role)
  have hbalanced : ∀ b ∈ Segment.blocks (r.body role).segments, f.Balanced f' r b := fun b hb =>
    balanced_of_alike hd hmade.built hmade'.built (references_of_isLaidOut hbody.laidOut b hb)
      (fun _ => references_of_extension hr) (hbody.standalone b hb)
  obtain ⟨text, htext, _, hrole⟩ := renderBody_eq_ok_iff.1 (hmade.rendered role)
  obtain ⟨text', htext', _, hrole'⟩ := renderBody_eq_ok_iff.1 (hmade'.rendered role)
  have hlines : lineEnds text + f'.lineEndsOf (Fills.slotsOf (r.body role).references) =
      lineEnds text' + f.lineEndsOf (Fills.slotsOf (r.body role).references) :=
    Fills.renderSegments_balance hbalanced htext htext'
  -- of the slots that are used only those for free text can make a difference
  have htexts : (Fills.slotsOf (r.body role).references).filter textSlots.contains =
      textSlotsOf role := hfor.texts _ (Template.mem_toList r.base.bodies role)
  have hsame : ∀ slot, textSlots.contains slot = false → f.lineEnds slot = f'.lineEnds slot := by
    intro slot hslot
    exact lineEnds_of_alike hd hmade.built hmade'.built fun hmem => by simp [hmem] at hslot
  have hslots := Fills.lineEndsOf_filter hsame (Fills.slotsOf (r.body role).references)
  rw [htexts] at hslots
  rw [hrole, hrole', String.toList_ofList, String.toList_ofList]
  omega

end

/-- Two artifacts for definitions that differ in free text only differ in lines by the separators
in the text that they show. -/
theorem lineCount_balance (htemplates : c.templates = templates) (hhandlers : c.handlers = handlers)
    (hd : d.Alike d') (ha : c.compile d = .ok a) (ha' : c.compile d' = .ok a') (role : BodyRole) :
    lineCount (a.bodies.get role) + shownSeparators d' role =
      lineCount (a'.bodies.get role) + shownSeparators d role := by
  obtain ⟨rules, r, h, f, f', hr, hmade, hmade'⟩ := made_of_alike hd ha ha'
  rw [htemplates] at hr
  rw [hhandlers] at hmade hmade'
  obtain ⟨regime, hregime, rfl⟩ := Law.get?_builtin hmade.handler
  have hbodies := body_balance hd hr hmade hmade' role
  have hshown := textSlots_balance hd hmade.built hmade'.built
    (lineEnds_default _ (contractType_mem hr hmade) _ hregime) role
  simp only [lineCount]
  omega

/-- Two artifacts for definitions that differ in free text only have as many lines as each other
exactly when the text that they show has as many separators. -/
theorem lineCount_eq_iff (htemplates : c.templates = templates) (hhandlers : c.handlers = handlers)
    (hd : d.Alike d') (ha : c.compile d = .ok a) (ha' : c.compile d' = .ok a') (role : BodyRole) :
    lineCount (a.bodies.get role) = lineCount (a'.bodies.get role) ↔
      shownSeparators d role = shownSeparators d' role := by
  have hbalance := lineCount_balance htemplates hhandlers hd ha ha' role
  omega

/-! An escrow whose payer has a separator of lines in the name. -/

def namedDocument : Document :=
  ⟨"named.yaml", [
    "contract:",
    "  type: escrow",
    "  jurisdiction: india",
    "  parties:",
    "    - \x7bname: A, role: payer\x7d",
    "    - \x7bname: B, role: payee\x7d",
    "  conditions:",
    "    - \x7btrigger: delivery_confirmed, action: release_funds\x7d",
    "  legal_requirements: [kyc_verification, gst_compliance]"]⟩

def separatedDocument : Document :=
  ⟨"separated.yaml", [
    "contract:",
    "  type: escrow",
    "  jurisdiction: india",
    "  parties:",
    "    - \x7bname: \"A\\u2028B\", role: payer\x7d",
    "    - \x7bname: B, role: payee\x7d",
    "  conditions:",
    "    - \x7btrigger: delivery_confirmed, action: release_funds\x7d",
    "  legal_requirements: [kyc_verification, gst_compliance]"]⟩

def escrowOf (name : String) : Definition :=
  ⟨"escrow", "india", [⟨name, ⟨"payer", .payer⟩, none, true⟩, ⟨"B", ⟨"payee", .payee⟩, none, true⟩],
    [⟨"delivery_confirmed", "release_funds", none, ∅⟩], ["kyc_verification", "gst_compliance"], {}⟩

theorem escrowOf_alike (name name' : String) : (escrowOf name).Alike (escrowOf name') where
  contractType := rfl
  jurisdiction := rfl
  parties := .cons ⟨rfl, rfl, rfl⟩ (.cons ⟨rfl, rfl, rfl⟩ .nil)
  conditions := .cons ⟨rfl, rfl, rfl, .nil⟩ .nil
  legalRequirements := rfl

example : BodyRole.all.map (shownSeparators (escrowOf "A\u2028B")) = [1, 1, 0] := by decide +kernel

/-- The rules of escrows in India by themselves. -/
def indiaEscrowRulebook : Rules.Rulebook :=
  ⟨Table.ofList [("india", Table.ofList [("escrow", indiaEscrowRules)])]⟩

theorem builtin_parts : Compiler.builtin.rules = rules ∧ Compiler.builtin.templates = templates ∧
    Compiler.builtin.vocabulary = Vocabulary.builtin ∧ Compiler.builtin.handlers = handlers := by
  simp only [Compiler.builtin, and_self]

/-- What is read under the rules of escrows in India is read under all the rules. -/
theorem parse_of_read {text name : String}
    (h : Definition.read indiaEscrowRulebook Vocabulary.builtin text = .ok (escrowOf name)) :
    Compiler.builtin.parse text = .ok (escrowOf name) := by
  have hlookup : indiaEscrowRulebook.lookup "india" "escrow" = some indiaEscrowRules := by
    decide +kernel
  obtain ⟨r, hr, hcomplies⟩ := Definition.complies_of_read h
  obtain rfl := Option.some.inj (hlookup.symm.trans hr)
  obtain ⟨hrules, _, hvocabulary, _⟩ := builtin_parts
  rw [Compiler.parse, hrules, hvocabulary]
  exact (Definition.read_again_iff h rules).2 ⟨_, rules_lookup, hcomplies⟩

theorem named_parse : Compiler.builtin.parse namedDocument.text = .ok (escrowOf "A") := by
  apply parse_of_read
  apply definition_of_spelled
  · repeat (apply Text.Spelled.cons; exact rfl)
    exact .nil
  · decide +kernel

theorem separated_parse :
    Compiler.builtin.parse separatedDocument.text = .ok (escrowOf "A\u2028B") := by
  apply parse_of_read
  apply definition_of_spelled
  · repeat (apply Text.Spelled.cons; exact rfl)
    exact .nil
  · decide +kernel

theorem builtin_compiles {text name : String}
    (h : Compiler.builtin.parse text = .ok (escrowOf name)) :
    ∃ a, Compiler.builtin.compile (escrowOf name) = .ok a := by
  obtain ⟨hrules, htemplates, hvocabulary, hhandlers⟩ := builtin_parts
  have hsound : Compiler.builtin.rules.Sound := hrules ▸ Rules.Rulebook.sound_of_load rules_load
  have hverbs : Compiler.builtin.vocabulary.VerbsNamed :=
    hvocabulary ▸ Vocabulary.Built.builtin.verbsNamed
  have htype : "escrow" ∈ ["escrow", "insurance", "settlement"] := List.mem_cons_self
  exact compile_of_holds (htemplates ▸ templates_holds) hhandlers hsound hverbs h
    List.mem_cons_self (List.mem_reverse.2 htype)

/-- Of the artifacts for the two escrows the tests have as many lines, and nothing else has. -/
theorem separated_lineCount_iff : ∃ a a', (escrowOf "A").Alike (escrowOf "A\u2028B") ∧
    Compiler.builtin.compile (escrowOf "A") = .ok a ∧
    Compiler.builtin.compile (escrowOf "A\u2028B") = .ok a' ∧
    ∀ role, lineCount (a.bodies.get role) = lineCount (a'.bodies.get role) ↔ role = .test := by
  obtain ⟨a, ha⟩ := builtin_compiles named_parse
  obtain ⟨a', ha'⟩ := builtin_compiles separated_parse
  have halike := escrowOf_alike "A" "A\u2028B"
  obtain ⟨_, htemplates, _, hhandlers⟩ := builtin_parts
  have hshown : ∀ role ∈ BodyRole.all, shownSeparators (escrowOf "A") role =
      shownSeparators (escrowOf "A\u2028B") role ↔ role = .test := by decide +kernel
  refine ⟨a, a', halike, ha, ha', fun role => ?_⟩
  rw [lineCount_eq_iff htemplates hhandlers halike ha ha' role]
  exact hshown role (by cases role <;> decide)

/-- The separator ends the line of the payer's name, and the contract has one line more. -/
theorem separator_ends_line :
    Compiler.builtin.parse namedDocument.text = .ok (escrowOf "A") ∧
      Compiler.builtin.parse separatedDocument.text = .ok (escrowOf "A\u2028B") ∧
      (escrowOf "A").Alike (escrowOf "A\u2028B") ∧
      ∃ a a', Compiler.builtin.compile (escrowOf "A") = .ok a ∧
        Compiler.builtin.compile (escrowOf "A\u2028B") = .ok a' ∧
        lineCount (a'.bodies.get .primary) = lineCount (a.bodies.get .primary) + 1 := by
  obtain ⟨a, ha⟩ := builtin_compiles named_parse
  obtain ⟨a', ha'⟩ := builtin_compiles separated_parse
  have halike := escrowOf_alike "A" "A\u2028B"
  refine ⟨named_parse, separated_parse, halike, a, a', ha, ha', ?_⟩
  obtain ⟨_, htemplates, _, hhandlers⟩ := builtin_parts
  have hbalance := lineCount_balance htemplates hhandlers halike ha ha' .primary
  have hplain : shownSeparators (escrowOf "A") .primary = 0 := by decide +kernel
  have hseparated : shownSeparators (escrowOf "A\u2028B") .primary = 1 := by decide +kernel
  omega

end Builtin
end Covenant
