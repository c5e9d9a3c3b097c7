import Covenant.Compiler
import Covenant.Proofs.Outcome

/-! When there is an artifact, and what it is. Composition succeeds when its inputs
belong together, the fills can be made and fit the template, and every body renders to a
text without markers; the artifact then holds those texts. -/
namespace Covenant

namespace Artifact

open Law (Handlers Handler)
open Template (Resolved)

theorem renderBody_eq_ok_iff {f : Fills} {r : Resolved} {role : BodyRole} {s : String} :
    renderBody f r role = .ok s ↔ ∃ text, f.render r (r.body role) = .ok text ∧
      hasMarker text = false ∧ s = String.ofList text := by
  rw [renderBody, Outcome.bind_eq_ok_iff]
  refine exists_congr fun text => and_congr_right fun _ => ?_
  cases hasMarker text with
  | true => simp
  | false => simp [eq_comm]

theorem mapM_eq_ok_iff {ε α β : Type} {f : BodyRole → α → Except ε β} {b : Bodies α}
    {c : Bodies β} : b.mapM f = .ok c ↔ ∀ role, f role (b.get role) = .ok (c.get role) := by
  simp only [Bodies.mapM, Outcome.bind_eq_ok_iff]
  constructor
  · rintro ⟨primary, hprimary, deploy, hdeploy, test, htest, heq⟩ role
    obtain rfl := Except.ok.inj heq
    cases role with
    | primary => exact hprimary
    | deploy => exact hdeploy
    | test => exact htest
  · intro h
    exact ⟨c.primary, h .primary, c.deploy, h .deploy, c.test, h .test, rfl⟩

theorem mismatch?_eq_none_iff {ctx : Law.Context} {r : Resolved} :
    mismatch? ctx r = none ↔ pairOfRules ctx.rules = pairOfDefinition ctx.definition ∧
      pairOfTemplate r = pairOfDefinition ctx.definition := by
  unfold mismatch?
  simp only
  split
  · next h => simp [h]
  · next h =>
    split
    · next h' => simp [h']
    · next h' =>
      rw [Decidable.not_not] at h h'
      simp [h, h']

/-- What goes into the making of an artifact. -/
structure Made (handlers : Handlers) (d : Definition) (r : Resolved) (rules : Rules.RuleSet)
    (h : Handler) (fills : Fills) (bodies : Bodies String) : Prop where
  sameRules : pairOfRules rules = pairOfDefinition d
  sameTemplate : pairOfTemplate r = pairOfDefinition d
  handler : handlers.get? d.jurisdiction = some h
  built : Fills.build ⟨d, rules⟩ r h = .ok fills
  verified : fills.verify r.slots = .ok ()
  rendered : ∀ role, renderBody fills r role = .ok (bodies.get role)

theorem compose_eq_ok_iff {handlers : Handlers} {d : Definition} {r : Resolved}
    {rules : Rules.RuleSet} {a : Artifact} :
    compose handlers d r rules = .ok a ↔ ∃ h fills bodies,
      Made handlers d r rules h fills bodies ∧ a = ⟨bodies, d, rules, r.provenance⟩ := by
  unfold compose
  simp only
  split
  · next hmismatch =>
    simp only [reduceCtorEq, false_iff]
    rintro ⟨h, fills, bodies, hmade, _⟩
    rw [mismatch?_eq_none_iff.2 ⟨hmade.sameRules, hmade.sameTemplate⟩] at hmismatch
    cases hmismatch
  · next hmatch =>
    obtain ⟨hrules, htemplate⟩ := mismatch?_eq_none_iff.1 hmatch
    split
    · next hnone =>
      simp only [reduceCtorEq, false_iff]
      rintro ⟨h, fills, bodies, hmade, _⟩
      rw [hmade.handler] at hnone
      cases hnone
    · next h hhandler =>
      constructor
      · intro hok
        obtain ⟨fills, hfills, hok⟩ := Outcome.bind_eq_ok_iff.1 hok
        obtain ⟨_, hverify, hok⟩ := Outcome.bind_eq_ok_iff.1 hok
        obtain ⟨bodies, hbodies, heq⟩ := Outcome.bind_eq_ok_iff.1 hok
        obtain rfl := Except.ok.inj heq
        exact ⟨h, fills, bodies,
          ⟨hrules, htemplate, hhandler, hfills, hverify, mapM_eq_ok_iff.1 hbodies⟩, rfl⟩
      · rintro ⟨h', fills, bodies, hmade, rfl⟩
        have hhandler' := hmade.handler
        rw [hhandler] at hhandler'
        obtain rfl := Option.some.inj hhandler'
        refine Outcome.bind_eq_ok_iff.2 ⟨fills, hmade.built, ?_⟩
        refine Outcome.bind_eq_ok_iff.2 ⟨(), hmade.verified, ?_⟩
        exact Outcome.bind_eq_ok_iff.2 ⟨bodies, mapM_eq_ok_iff.2 hmade.rendered, rfl⟩

end Artifact

namespace Compiler

/-- Compilation ends where there are no rules, or no template, or with the composition. -/
theorem compile_cases (c : Compiler) (d : Definition) :
    (c.rules.lookup d.jurisdiction d.contractType = none ∧
        c.compile d = .error (.definition [c.unsupported d])) ∨
      (∃ rules e, c.rules.lookup d.jurisdiction d.contractType = some rules ∧
        c.templates.resolve d.contractType d.jurisdiction = .error e ∧
        c.compile d = .error (.template e)) ∨
      ∃ rules template, c.rules.lookup d.jurisdiction d.contractType = some rules ∧
        c.templates.resolve d.contractType d.jurisdiction = .ok template ∧
        c.compile d = (Artifact.compose c.handlers d template rules).mapError .artifact := by
  unfold compile
  cases c.rules.lookup d.jurisdiction d.contractType with
  | none => simp
  | some rules =>
    cases c.templates.resolve d.contractType d.jurisdiction with
    | error e => simp
    | ok template => simp

theorem compile_eq_ok_iff {c : Compiler} {d : Definition} {a : Artifact} :
    c.compile d = .ok a ↔ ∃ rules template,
      c.rules.lookup d.jurisdiction d.contractType = some rules ∧
        c.templates.resolve d.contractType d.jurisdiction = .ok template ∧
        Artifact.compose c.handlers d template rules = .ok a := by
  obtain ⟨hs, hc⟩ | ⟨_, _, hs, hr, hc⟩ | ⟨_, _, hs, hr, hc⟩ := c.compile_cases d
  · simp [hs, hc]
  · simp [hs, hr, hc]
  · simp [hs, hr, hc, Outcome.mapError_eq_ok_iff]

/-- An artifact records the definition and the rule set that it was made from. -/
theorem recorded_of_compile {c : Compiler} {d : Definition} {a : Artifact}
    (h : c.compile d = .ok a) :
    a.definition = d ∧ c.rules.lookup d.jurisdiction d.contractType = some a.rules := by
  obtain ⟨rules, _, hrules, _, hcompose⟩ := compile_eq_ok_iff.1 h
  obtain ⟨_, _, _, _, rfl⟩ := Artifact.compose_eq_ok_iff.1 hcompose
  exact ⟨rfl, hrules⟩

end Compiler
end Covenant
