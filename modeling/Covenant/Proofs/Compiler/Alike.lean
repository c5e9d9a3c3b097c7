import Covenant.Proofs.Artifact.Facts
import Covenant.Proofs.Artifact.LineCounts
import Covenant.Proofs.Builtin.Documents
import Covenant.Proofs.Definition.Fields

/-! Definitions that differ in free text only, and what is generated from them. Of all the code
only the comments on parameters and the list of the parties can differ, line by line, and a
comment on a parameter has the same line ends in both. The rest of the free text fills a few
scalar slots. -/
namespace Covenant

open Artifact (LineByLine OneLine)
open Builtin (textSlots runOnBlocks)
open Checked (map_eq_of_forall₂ mem_right_of_forall₂)
open Text (lineEnds safe lineEnds_append)

/-! ### Definitions -/

/-- Values that are the same, or two texts. -/
inductive ParamValue.Alike : ParamValue → ParamValue → Prop
  | same (v : ParamValue) : Alike v v
  | texts (s t : String) : Alike (.text s) (.text t)

structure Party.Alike (p q : Party) : Prop where
  role : p.role = q.role
  address : p.address = q.address
  verificationRequired : p.verificationRequired = q.verificationRequired

structure Condition.Alike (c d : Condition) : Prop where
  trigger : c.trigger = d.trigger
  action : c.action = d.action
  timeLimit : c.timeLimit = d.timeLimit
  parameters : List.Forall₂ (fun e f => e.1 = f.1 ∧ ParamValue.Alike e.2 f.2) c.parameters.entries
    d.parameters.entries

/-- Definitions that differ in names of parties, texts of parameters and metadata only. -/
structure Definition.Alike (d d' : Definition) : Prop where
  contractType : d.contractType = d'.contractType
  jurisdiction : d.jurisdiction = d'.jurisdiction
  parties : List.Forall₂ Party.Alike d.parties d'.parties
  conditions : List.Forall₂ Condition.Alike d.conditions d'.conditions
  legalRequirements : d.legalRequirements = d'.legalRequirements

/-! ### Conditions -/

namespace Code

/-- Statements that are the same or take up a line each, with the same line ends in them. -/
def SameLines (s t : String) : Prop :=
  LineByLine s.toList t.toList ∧ lineEnds s.toList = lineEnds t.toList

theorem forall₂_sameLines_refl (ss : List String) : List.Forall₂ SameLines ss ss :=
  List.forall₂_same.2 fun _ _ => ⟨.same _, rfl⟩

theorem lineEnds_display {v w : ParamValue} (h : v.Alike w) :
    lineEnds (safe v.display).toList = lineEnds (safe w.display).toList := by
  cases h with
  | same => rfl
  | texts s t =>
    rw [ParamValue.display, ParamValue.display,
      Text.lineEnds_safe_of_none (Text.lineEnds_quoted s),
      Text.lineEnds_safe_of_none (Text.lineEnds_quoted t)]

theorem oneLine_parameterComment (name : String) (value : ParamValue) :
    OneLine (parameterComment name value).toList := by
  have hclean : Text.Clean (parameterComment name value).toList :=
    (Text.clean_opening rfl rfl (Text.clean_safe name)).joint rfl rfl (Text.clean_safe _)
  refine ⟨Text.newline_not_mem_of_clean hclean, ?_⟩
  unfold parameterComment
  repeat apply Artifact.not_blank_append
  rfl

theorem parameterComment_sameLines {name : String} {v w : ParamValue} (h : v.Alike w) :
    SameLines (parameterComment name v) (parameterComment name w) := by
  refine ⟨.lines (oneLine_parameterComment name v) (oneLine_parameterComment name w), ?_⟩
  simp only [parameterComment, String.toList_append, lineEnds_append, lineEnds_display h]

theorem conditionFunction_sameLines {c d : Condition} (h : c.Alike d) (i : Nat) (name : String) :
    List.Forall₂ SameLines (conditionFunction i name c) (conditionFunction i name d) := by
  have hparameters : List.Forall₂ SameLines
      (c.parameters.entries.map fun e => parameterComment e.1 e.2)
      (d.parameters.entries.map fun e => parameterComment e.1 e.2) := by
    rw [List.forall₂_map_left_iff, List.forall₂_map_right_iff]
    refine h.parameters.imp fun e f hef => ?_
    rw [hef.1]
    exact parameterComment_sameLines hef.2
  unfold conditionFunction
  rw [h.trigger, h.action, h.timeLimit]
  exact List.rel_append (List.rel_append (forall₂_sameLines_refl _) hparameters)
    (forall₂_sameLines_refl _)

theorem named_of_alike {cs ds : List Condition} (h : List.Forall₂ Condition.Alike cs ds) :
    List.Forall₂ (fun e f => e.1 = f.1 ∧ Condition.Alike e.2 f.2) (named cs) (named ds) := by
  unfold named
  rw [map_eq_of_forall₂ (f := (·.trigger)) (g := (·.trigger)) h fun hcd => hcd.trigger]
  generalize functionNames (ds.map (·.trigger)) = names
  induction h generalizing names with
  | nil => simp
  | cons hcd _ ih =>
    cases names with
    | nil => simp
    | cons name names => exact .cons ⟨rfl, hcd⟩ (ih names)

theorem conditionFunctions_sameLines {cs ds : List Condition}
    (h : List.Forall₂ Condition.Alike cs ds) :
    List.Forall₂ SameLines (conditionFunctions cs) (conditionFunctions ds) := by
  have hfrom : ∀ {es fs : List (String × Condition)},
      List.Forall₂ (fun e f => e.1 = f.1 ∧ Condition.Alike e.2 f.2) es fs → ∀ i,
        List.Forall₂ SameLines (conditionFunctionsFrom i es) (conditionFunctionsFrom i fs) := by
    intro es fs hes
    induction hes with
    | nil => exact fun i => .nil
    | cons hef _ ih =>
      intro i
      rw [conditionFunctionsFrom, conditionFunctionsFrom, hef.1]
      exact List.rel_append (conditionFunction_sameLines hef.2 i _) (ih (i + 1))
  exact hfrom (named_of_alike h) 0

/-- The tests of conditions name nothing but their verbs. -/
theorem conditionTestsFrom_of_alike {es fs : List (String × Condition)}
    (h : List.Forall₂ (fun e f => e.1 = f.1 ∧ Condition.Alike e.2 f.2) es fs) (i : Nat) :
    conditionTestsFrom i es = conditionTestsFrom i fs := by
  induction h generalizing i with
  | nil => rfl
  | cons hef _ ih =>
    simp only [conditionTestsFrom, conditionTest, ih (i + 1), hef.1, hef.2.trigger, hef.2.action]

end Code

/-! ### Jurisdictions -/

namespace Law

variable {d d' : Definition} {rules : Rules.RuleSet}

theorem requires_of_alike (h : d.Alike d') :
    Context.requires ⟨d, rules⟩ = Context.requires ⟨d', rules⟩ := by
  funext requirement
  simp only [Context.requires, Definition.requests, h.legalRequirements]

theorem requirements_of_alike (h : d.Alike d') :
    Context.requirements ⟨d, rules⟩ = Context.requirements ⟨d', rules⟩ := by
  simp only [Context.requirements, h.legalRequirements]

/-- A regime reads nothing but the requirements and the rules. -/
theorem Regime.handler_of_alike (h : d.Alike d') (r : Regime) :
    r.handler.state ⟨d, rules⟩ = r.handler.state ⟨d', rules⟩ ∧
      r.handler.compliance ⟨d, rules⟩ = r.handler.compliance ⟨d', rules⟩ ∧
      r.handler.dispute ⟨d, rules⟩ = r.handler.dispute ⟨d', rules⟩ ∧
      r.handler.functions ⟨d, rules⟩ = r.handler.functions ⟨d', rules⟩ ∧
      r.handler.tests ⟨d, rules⟩ = r.handler.tests ⟨d', rules⟩ := by
  have hactive : r.active ⟨d, rules⟩ = r.active ⟨d', rules⟩ := by
    simp only [active, requires_of_alike h]
  have hconstant : Context.hasConstant ⟨d, rules⟩ = Context.hasConstant ⟨d', rules⟩ := rfl
  refine ⟨?_, ?_, ?_, ?_, ?_⟩
  · simp only [handler, state, hactive]
  · simp only [handler, compliance, ceiling, hactive, hconstant]
  · simp only [handler, dispute, deadline, hconstant]
  · simp only [handler, functionLines, hactive]
  · simp only [handler, hactive]

end Law

namespace Artifact

variable {d d' : Definition} {rules : Rules.RuleSet} {r : Template.Resolved} {h : Law.Handler}

/-! ### The facts -/

/-- What two fills of a slot have in common. -/
structure FillsAlike (slot : String) (a b : Fill) : Prop where
  ends : slot ∉ textSlots → a.lineEnds = b.lineEnds
  within : slot ∈ runOnBlocks → a = b
  statements : ∀ ss ts, a = .block ss → b = .block ts →
    List.Forall₂ LineByLine (ss.map String.toList) (ts.map String.toList)

theorem FillsAlike.of_eq {slot : String} {a b : Fill} (heq : a = b) : FillsAlike slot a b := by
  subst heq
  refine ⟨fun _ => rfl, fun _ => rfl, ?_⟩
  rintro ss ts rfl heq
  cases heq
  exact List.forall₂_same.2 fun _ _ => .same _

theorem FillsAlike.scalar {slot : String} (hslot : slot ∈ textSlots) (hwithin : slot ∉ runOnBlocks)
    (s t : String) : FillsAlike slot (.scalar s) (.scalar t) := by
  refine ⟨fun hno => absurd hslot hno, fun hyes => absurd hyes hwithin, ?_⟩
  rintro ss ts heq
  cases heq

theorem FillsAlike.block {slot : String} {ss ts : List String} (hwithin : slot ∉ runOnBlocks)
    (hlines : List.Forall₂ (fun s t => LineByLine s.toList t.toList) ss ts)
    (hends : slot ∉ textSlots → (ss.map fun s => lineEnds s.toList) = ts.map fun t => lineEnds t.toList) :
    FillsAlike slot (.block ss) (.block ts) := by
  refine ⟨fun hno => congrArg List.sum (hends hno), fun hyes => absurd hyes hwithin, ?_⟩
  rintro _ _ heq heq'
  cases heq
  cases heq'
  rwa [List.forall₂_map_left_iff, List.forall₂_map_right_iff]

/-- The first parties of a class are alike, or there is none. -/
theorem find?_alike {ps qs : List Party} (h : List.Forall₂ Party.Alike ps qs) (c : RoleClass) :
    (ps.find? (fun p => p.role.roleClass = c) = none ∧
        qs.find? (fun p => p.role.roleClass = c) = none) ∨
      ∃ p q, ps.find? (fun p => p.role.roleClass = c) = some p ∧
        qs.find? (fun p => p.role.roleClass = c) = some q ∧ p.Alike q := by
  induction h with
  | nil => exact .inl ⟨rfl, rfl⟩
  | cons hpq _ ih =>
    simp only [List.find?_cons, hpq.role]
    split
    · exact .inr ⟨_, _, rfl, rfl, hpq⟩
    · exact ih

theorem partyAddress_alike (hd : d.Alike d') (c : RoleClass) :
    partyAddress (d.firstOf c) = partyAddress (d'.firstOf c) := by
  unfold Definition.firstOf
  rcases find?_alike hd.parties c with ⟨hnone, hnone'⟩ | ⟨p, q, hp, hq, hpq⟩
  · rw [hnone, hnone']
  · rw [hp, hq]
    simp only [partyAddress, Option.map_some, Party.addressOrZero, hpq.address]

theorem scalars_alike (hd : d.Alike d') : List.Forall₂
    (fun e f => e.1 = f.1 ∧ FillsAlike e.1 (.scalar e.2) (.scalar f.2))
    (scalars ⟨d, rules⟩ r h) (scalars ⟨d', rules⟩ r h) := by
  have hname : contractName d = contractName d' := by rw [contractName, contractName, hd.contractType]
  have hpayer := partyAddress_alike hd .payer
  have hpayee := partyAddress_alike hd .payee
  have hrequirements := @Law.requirements_of_alike _ _ rules hd
  simp only [scalars, List.forall₂_cons, true_and, hrequirements, hname, hd.contractType,
    hd.jurisdiction, Definition.payer, Definition.payee, hpayer, hpayee]
  refine ⟨.of_eq rfl, .of_eq rfl, .of_eq rfl, .scalar (by decide) (by decide) _ _,
    .scalar (by decide) (by decide) _ _, .of_eq rfl, .of_eq rfl,
    .scalar (by decide) (by decide) _ _, .of_eq rfl, .scalar (by decide) (by decide) _ _,
    .of_eq rfl, .of_eq rfl, .of_eq rfl, .of_eq rfl, .nil⟩

theorem oneLine_registerParty (p : Party) : OneLine (registerParty p).toList := by
  refine ⟨Text.newline_not_mem_of_clean (contained_registerParty p).clean, ?_⟩
  unfold registerParty
  repeat apply not_blank_append
  rfl

theorem blocks_alike (hd : d.Alike d') (regime : Law.Regime) : List.Forall₂
    (fun e f => e.1 = f.1 ∧ FillsAlike e.1 (.block e.2) (.block f.2))
    (blocks ⟨d, rules⟩ regime.handler) (blocks ⟨d', rules⟩ regime.handler) := by
  obtain ⟨hstate, hcompliance, hdispute, hfunctions, htests⟩ :=
    @Law.Regime.handler_of_alike _ _ rules hd regime
  have hrequirements := @Law.requirements_of_alike _ _ rules hd
  have hconditions := Code.conditionFunctions_sameLines hd.conditions
  have hcases : Code.contractTests ⟨d, rules⟩ = Code.contractTests ⟨d', rules⟩ := by
    simp only [Code.contractTests, hrequirements, hd.jurisdiction,
      Code.conditionTestsFrom_of_alike (Code.named_of_alike hd.conditions) 0]
  simp only [blocks, List.forall₂_cons, true_and, hrequirements, hcases, hstate, hcompliance,
    hdispute, hfunctions, htests]
  refine ⟨.of_eq rfl, .of_eq rfl, ?_, .of_eq rfl, ?_, .of_eq rfl, .of_eq rfl, .of_eq rfl,
    .of_eq rfl, .of_eq rfl, .of_eq rfl, .nil⟩
  · refine .block (by decide) (hconditions.imp fun _ _ hst => hst.1) fun _ => ?_
    exact map_eq_of_forall₂ hconditions fun hst => hst.2
  · refine .block (by decide) ?_ fun hno => absurd (by decide) hno
    rw [List.forall₂_map_left_iff, List.forall₂_map_right_iff]
    exact hd.parties.imp fun p q _ => .lines (oneLine_registerParty p) (oneLine_registerParty q)

theorem facts_alike (hd : d.Alike d') (regime : Law.Regime) :
    List.Forall₂ (fun e f => e.1 = f.1 ∧ FillsAlike e.1 e.2 f.2)
      (facts ⟨d, rules⟩ r regime.handler ++ presetFills r)
      (facts ⟨d', rules⟩ r regime.handler ++ presetFills r) := by
  refine List.rel_append (List.rel_append ?_ ?_) (List.forall₂_same.2 fun e _ => ⟨rfl, .of_eq rfl⟩)
  · rw [List.forall₂_map_left_iff, List.forall₂_map_right_iff]
    exact scalars_alike hd
  · rw [List.forall₂_map_left_iff, List.forall₂_map_right_iff]
    exact blocks_alike hd regime

/-! ### The fills -/

section

variable {regime : Law.Regime} {f f' : Fills}

/-- The same slots are filled for both definitions, with fills that are alike. -/
theorem get?_alike (hd : d.Alike d') (hf : Fills.build ⟨d, rules⟩ r regime.handler = .ok f)
    (hf' : Fills.build ⟨d', rules⟩ r regime.handler = .ok f') (slot : String) :
    (f.get? slot = none ∧ f'.get? slot = none) ∨
      ∃ a b, f.get? slot = some a ∧ f'.get? slot = some b ∧ FillsAlike slot a b := by
  cases ha : f.get? slot with
  | none =>
    have hkinds := (kinds_build hf slot).trans (kinds_build hf' slot).symm
    rw [ha, Option.map_none, eq_comm, Option.map_eq_none_iff] at hkinds
    exact .inl ⟨rfl, hkinds⟩
  | some a =>
    obtain ⟨⟨_, b⟩, hmem, heq, halike⟩ :=
      mem_right_of_forall₂ (@facts_alike _ _ rules r hd regime) ((get?_build hf).1 ha)
    obtain rfl : slot = _ := heq
    exact .inr ⟨a, b, rfl, (get?_build hf').2 hmem, halike⟩

theorem lineEnds_of_alike (hd : d.Alike d')
    (hf : Fills.build ⟨d, rules⟩ r regime.handler = .ok f)
    (hf' : Fills.build ⟨d', rules⟩ r regime.handler = .ok f') {slot : String}
    (hslot : slot ∉ textSlots) : f.lineEnds slot = f'.lineEnds slot := by
  rcases get?_alike hd hf hf' slot with ⟨ha, hb⟩ | ⟨a, b, ha, hb, halike⟩
  · rw [Fills.lineEnds, Fills.lineEnds, ha, hb]
  · rw [Fills.lineEnds, Fills.lineEnds, ha, hb]
    exact halike.ends hslot

/-- In a block of its own lines the statements go line by line, elsewhere they are the same. -/
theorem balanced_of_alike (hd : d.Alike d') (hf : Fills.build ⟨d, rules⟩ r regime.handler = .ok f)
    (hf' : Fills.build ⟨d', rules⟩ r regime.handler = .ok f') {b : Template.Block}
    (hbody : b.body.flatMap Template.Inline.references = [])
    (hextension : ∀ t, r.extension? b.name.value = some t →
      t.inlines.flatMap Template.Inline.references = [])
    (hstandalone : b.standalone = !runOnBlocks.contains b.name.value) : f.Balanced f' r b where
  body := hbody
  extension := hextension
  statements := fun ss ss' hss hss' => by
    rw [Fills.statements_eq_ok_iff] at hss hss'
    rcases get?_alike hd hf hf' b.name.value with ⟨ha, _⟩ | ⟨_, _, ha, hb, halike⟩
    · rw [ha] at hss
      cases hss
    · exact halike.statements ss ss' (Option.some.inj (ha.symm.trans hss))
        (Option.some.inj (hb.symm.trans hss'))
  within := fun hwithin => by
    have hslot : b.name.value ∈ runOnBlocks := by simpa [hwithin] using hstandalone
    rcases get?_alike hd hf hf' b.name.value with ⟨ha, hb⟩ | ⟨_, _, ha, hb, halike⟩
    · rw [Fills.statements, Fills.statements, ha, hb]
    · rw [Fills.statements, Fills.statements, ha, hb, halike.within hslot]

end

end Artifact
end Covenant
