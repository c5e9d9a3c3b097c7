import Covenant.Proofs.Artifact.Compose
import Covenant.Proofs.Artifact.Marker
import Covenant.Proofs.Artifact.Misfits
import Covenant.Proofs.Artifact.Verified

/-! The verdict of composition. Which error there is, or that there is none, follows from
the slots that are declared, preset and filled from facts, up to the search for markers in
the rendered texts; rendering itself always succeeds. -/
namespace Covenant.Artifact

open Law (Handler Handlers)
open Template (SlotKind Resolved Library Offer)

/-! ### Bodies in order -/

theorem mapM_eq_error_iff {ε α β : Type} {f : BodyRole → α → Except ε β} {b : Bodies α} {e : ε} :
    b.mapM f = .error e ↔ ∃ before role after, BodyRole.all = before ++ role :: after ∧
      (∀ role' ∈ before, ∃ c, f role' (b.get role') = .ok c) ∧ f role (b.get role) = .error e := by
  simp only [Bodies.mapM, Outcome.bind_eq_error_iff]
  constructor
  · rintro (h | ⟨p, hp, h | ⟨d, hd, h | ⟨t, ht, h⟩⟩⟩)
    · exact ⟨[], .primary, _, rfl, by simp, h⟩
    · exact ⟨[.primary], .deploy, _, rfl, by simpa using ⟨p, hp⟩, h⟩
    · exact ⟨[.primary, .deploy], .test, _, rfl, by simpa using ⟨⟨p, hp⟩, ⟨d, hd⟩⟩, h⟩
    · cases h
  · rintro ⟨before, role, after, horder, hbefore, h⟩
    rcases before with _ | ⟨a, _ | ⟨b, _ | ⟨c, rest⟩⟩⟩
    · obtain ⟨rfl, _⟩ : BodyRole.primary = role ∧ _ := by simpa [BodyRole.all] using horder
      exact .inl h
    · obtain ⟨rfl, rfl, _⟩ : BodyRole.primary = a ∧ BodyRole.deploy = role ∧ _ := by
        simpa [BodyRole.all] using horder
      obtain ⟨p, hp⟩ := hbefore .primary (by simp)
      exact .inr ⟨p, hp, .inl h⟩
    · obtain ⟨rfl, rfl, rfl, _⟩ : BodyRole.primary = a ∧ BodyRole.deploy = b ∧
          BodyRole.test = role ∧ _ := by simpa [BodyRole.all] using horder
      obtain ⟨p, hp⟩ := hbefore .primary (by simp)
      obtain ⟨d, hd⟩ := hbefore .deploy (by simp)
      exact .inr ⟨p, hp, .inr ⟨d, hd, .inl h⟩⟩
    · simp [BodyRole.all] at horder

/-! ### The verdict -/

/-- The inputs were made for the same pair. -/
structure Matching (d : Definition) (r : Resolved) (rules : Rules.RuleSet) : Prop where
  rules : pairOfRules rules = pairOfDefinition d
  template : pairOfTemplate r = pairOfDefinition d

/-- The inputs belong together, they have a handler, and the slots of the template are
those of the facts and presets, each once and with its kind. -/
structure Composable (handlers : Handlers) (d : Definition) (r : Resolved)
    (rules : Rules.RuleSet) : Prop where
  matching : Matching d r rules
  handled : d.jurisdiction ∈ handlers.ids
  once : ∀ s, ¬PresetTwice r s
  complete : ∀ s, ¬Unfilled r s
  fits : ∀ s, ¬Misfit r s

/-- The texts are the bodies of the template rendered with the fills that are made for it. -/
def Rendered (handlers : Handlers) (d : Definition) (r : Resolved) (rules : Rules.RuleSet)
    (texts : Bodies (List Char)) : Prop :=
  ∃ h fills, handlers.get? d.jurisdiction = some h ∧ Fills.build ⟨d, rules⟩ r h = .ok fills ∧
    ∀ role, fills.render r (r.body role) = .ok (texts.get role)

/-- What comes of a composition. Every stage is reached when those before it have found
nothing wrong. -/
inductive Verdict (handlers : Handlers) (d : Definition) (r : Resolved) (rules : Rules.RuleSet) :
    Except Error Artifact → Prop where
  | otherRules (h : pairOfRules rules ≠ pairOfDefinition d) :
    Verdict handlers d r rules
      (.error (.mismatch "rule set" (pairOfRules rules) (pairOfDefinition d)))
  | otherTemplate (hrules : pairOfRules rules = pairOfDefinition d)
      (h : pairOfTemplate r ≠ pairOfDefinition d) :
    Verdict handlers d r rules
      (.error (.mismatch "template" (pairOfTemplate r) (pairOfDefinition d)))
  | noHandler (hmatching : Matching d r rules) (h : d.jurisdiction ∉ handlers.ids) :
    Verdict handlers d r rules (.error (.missingHandler d.jurisdiction))
  | filledTwice (hmatching : Matching d r rules) (hhandled : d.jurisdiction ∈ handlers.ids)
      {slot : String} (h : Smallest (PresetTwice r) slot) :
    Verdict handlers d r rules (.error (.filledTwice slot))
  | unfilled (hmatching : Matching d r rules) (hhandled : d.jurisdiction ∈ handlers.ids)
      (honce : ∀ s, ¬PresetTwice r s) {slot : String} (h : Smallest (Unfilled r) slot) :
    Verdict handlers d r rules (.error (.unfilled slot))
  | undeclared (hmatching : Matching d r rules) (hhandled : d.jurisdiction ∈ handlers.ids)
      (honce : ∀ s, ¬PresetTwice r s) (hcomplete : ∀ s, ¬Unfilled r s) {slot : String}
      (h : Smallest (Misfit r) slot) (hslot : r.slots.get? slot = none) :
    Verdict handlers d r rules (.error (.undeclared slot))
  | kindMismatch (hmatching : Matching d r rules) (hhandled : d.jurisdiction ∈ handlers.ids)
      (honce : ∀ s, ¬PresetTwice r s) (hcomplete : ∀ s, ¬Unfilled r s) {slot : String}
      (h : Smallest (Misfit r) slot) {declared filled : SlotKind}
      (hslot : r.slots.get? slot = some declared) (hfilled : (slot, filled) ∈ factKinds) :
    Verdict handlers d r rules (.error (.kindMismatch slot declared filled))
  | residualMarker (hcomposable : Composable handlers d r rules) {texts : Bodies (List Char)}
      (htexts : Rendered handlers d r rules texts) {before after : List BodyRole}
      {role : BodyRole} (horder : BodyRole.all = before ++ role :: after)
      (hbefore : ∀ role' ∈ before, ¬Marked (texts.get role')) (h : Marked (texts.get role)) :
    Verdict handlers d r rules (.error (.residualMarker role))
  | made (hcomposable : Composable handlers d r rules) {texts : Bodies (List Char)}
      (htexts : Rendered handlers d r rules texts) (h : ∀ role, ¬Marked (texts.get role)) :
    Verdict handlers d r rules
      (.ok ⟨⟨.ofList texts.primary, .ofList texts.deploy, .ofList texts.test⟩, d, rules,
        r.provenance⟩)

section

variable {handlers : Handlers} {d : Definition} {r : Resolved} {rules : Rules.RuleSet}

theorem get?_eq_none_iff {j : String} : handlers.get? j = none ↔ j ∉ handlers.ids := by
  rw [Handlers.get?, Handlers.ids, Table.mem_keys, Table.contains, Option.not_isSome_iff_eq_none]

theorem get?_of_mem_ids {j : String} (h : j ∈ handlers.ids) : ∃ h, handlers.get? j = some h := by
  rw [← Option.ne_none_iff_exists', ne_eq, get?_eq_none_iff, not_not]
  exact h

theorem compose_of_mismatch {e : Error} (h : mismatch? ⟨d, rules⟩ r = some e) :
    compose handlers d r rules = .error e := by
  simp only [compose, h]

theorem Matching.compose_eq_of_unhandled (hm : Matching d r rules) (hh : d.jurisdiction ∉ handlers.ids) :
    compose handlers d r rules = .error (.missingHandler d.jurisdiction) := by
  have hmatch : mismatch? ⟨d, rules⟩ r = none :=
    mismatch?_eq_none_iff.2 ⟨hm.rules, hm.template⟩
  simp only [compose, hmatch, get?_eq_none_iff.2 hh]

theorem Matching.compose_eq (hm : Matching d r rules) {h : Handler}
    (hh : handlers.get? d.jurisdiction = some h) :
    compose handlers d r rules = Fills.build ⟨d, rules⟩ r h >>= fun f => f.verify r.slots >>= fun _ =>
      (⟨(), (), ()⟩ : Bodies Unit).mapM (fun role _ => renderBody f r role) >>= fun bodies =>
        .ok ⟨bodies, d, rules, r.provenance⟩ := by
  have hmatch : mismatch? ⟨d, rules⟩ r = none :=
    mismatch?_eq_none_iff.2 ⟨hm.rules, hm.template⟩
  simp only [compose, hmatch, hh]
  rfl

theorem renderBody_of_render {f : Fills} {role : BodyRole} {text : List Char}
    (h : f.render r (r.body role) = .ok text) :
    (renderBody f r role = .error (.residualMarker role) ↔ Marked text) ∧
      (renderBody f r role = .ok (String.ofList text) ↔ ¬Marked text) := by
  have hbody : renderBody f r role =
      if hasMarker text then .error (.residualMarker role) else .ok (String.ofList text) := by
    rw [renderBody, h]
    rfl
  rw [hbody, ← hasMarker_eq_true_iff]
  cases hasMarker text with
  | true => simp
  | false => simp

theorem exists_bodies {α : Type} {P : BodyRole → α → Prop} (h : ∀ role, ∃ a, P role a) :
    ∃ b : Bodies α, ∀ role, P role (b.get role) := by
  obtain ⟨primary, hprimary⟩ := h .primary
  obtain ⟨deploy, hdeploy⟩ := h .deploy
  obtain ⟨test, htest⟩ := h .test
  refine ⟨⟨primary, deploy, test⟩, fun role => ?_⟩
  cases role with
  | primary => exact hprimary
  | deploy => exact hdeploy
  | test => exact htest

/-- With fills made and verified, all that is left to find is a marker. -/
theorem verdict_of_rendered (hcomposable : Composable handlers d r rules) {h : Handler} {f : Fills}
    (hh : handlers.get? d.jurisdiction = some h) (hbuild : Fills.build ⟨d, rules⟩ r h = .ok f)
    {texts : Bodies (List Char)} (htexts : ∀ role, f.render r (r.body role) = .ok (texts.get role)) :
    Verdict handlers d r rules
      ((⟨(), (), ()⟩ : Bodies Unit).mapM (fun role _ => renderBody f r role) >>= fun bodies =>
        .ok ⟨bodies, d, rules, r.provenance⟩) := by
  have hrendered : Rendered handlers d r rules texts := ⟨h, f, hh, hbuild, htexts⟩
  cases hbodies : (⟨(), (), ()⟩ : Bodies Unit).mapM fun role _ => renderBody f r role with
  | error e =>
    obtain ⟨before, role, after, horder, hbefore, herror⟩ := mapM_eq_error_iff.1 hbodies
    have hmarked : Marked (texts.get role) := by
      by_contra hclean
      rw [(renderBody_of_render (htexts role)).2.2 hclean] at herror
      cases herror
    rw [(renderBody_of_render (htexts role)).1.2 hmarked] at herror
    obtain rfl := Except.error.inj herror
    refine .residualMarker hcomposable hrendered horder (fun role' hrole' hmarked' => ?_) hmarked
    obtain ⟨c, hc⟩ := hbefore role' hrole'
    rw [(renderBody_of_render (htexts role')).1.2 hmarked'] at hc
    cases hc
  | ok bodies =>
    have hclean : ∀ role, ¬Marked (texts.get role) := by
      intro role hmarked
      have hbody := mapM_eq_ok_iff.1 hbodies role
      rw [(renderBody_of_render (htexts role)).1.2 hmarked] at hbody
      cases hbody
    have hbody := fun role => (mapM_eq_ok_iff.1 hbodies role).symm.trans
      ((renderBody_of_render (htexts role)).2.2 (hclean role))
    have heq : bodies = ⟨.ofList texts.primary, .ofList texts.deploy, .ofList texts.test⟩ := by
      obtain ⟨p, d, t⟩ := bodies
      obtain rfl := Except.ok.inj (hbody .primary)
      obtain rfl := Except.ok.inj (hbody .deploy)
      obtain rfl := Except.ok.inj (hbody .test)
      rfl
    subst heq
    exact .made hcomposable hrendered hclean

/-- A composition ends with its verdict. -/
theorem verdict_compose (hr : r.Sound) (hp : ∀ s ∈ r.presets.keys, r.slots.get? s = some .scalar) :
    Verdict handlers d r rules (compose handlers d r rules) := by
  by_cases hrules : pairOfRules rules = pairOfDefinition d
  case neg =>
    rw [compose_of_mismatch (if_pos hrules)]
    exact .otherRules hrules
  by_cases htemplate : pairOfTemplate r = pairOfDefinition d
  case neg =>
    rw [compose_of_mismatch ((if_neg (not_not.2 hrules)).trans (if_pos htemplate))]
    exact .otherTemplate hrules htemplate
  have hm : Matching d r rules := ⟨hrules, htemplate⟩
  by_cases hhandled : d.jurisdiction ∈ handlers.ids
  case neg =>
    rw [hm.compose_eq_of_unhandled hhandled]
    exact .noHandler hm hhandled
  obtain ⟨h, hh⟩ := get?_of_mem_ids hhandled
  rw [hm.compose_eq hh]
  cases hbuild : Fills.build ⟨d, rules⟩ r h with
  | error e =>
    obtain ⟨slot, hslot, rfl⟩ := build_eq_error_iff.1 hbuild
    exact .filledTwice hm hhandled hslot
  | ok f =>
    have honce : ∀ s, ¬PresetTwice r s := fun s hs => (build_eq_ok_iff.1 hbuild).1 s hs.1 hs.2
    change Verdict handlers d r rules (f.verify r.slots >>= fun _ => _)
    cases hverify : f.verify r.slots with
    | error e =>
      rcases (verify_build_eq_error_iff hp hbuild).1 hverify with
        ⟨slot, hslot, rfl⟩ | ⟨hcomplete, slot, kind, hslot, hkind, ⟨hnone, rfl⟩ | ⟨declared, hsome, rfl⟩⟩
      · exact .unfilled hm hhandled honce hslot
      · exact .undeclared hm hhandled honce hcomplete hslot hnone
      · exact .kindMismatch hm hhandled honce hcomplete hslot hsome hkind
    | ok _ =>
      obtain ⟨hcomplete, hfits⟩ := (verify_build_ok_iff hp hbuild).1 hverify
      obtain ⟨texts, htexts⟩ := exists_bodies fun role =>
        Fills.render_of_fits hr (Fills.verify_eq_ok_iff.1 hverify) role
      exact verdict_of_rendered ⟨hm, hhandled, honce, hcomplete, hfits⟩ hh hbuild htexts

theorem exists_build_of_once (honce : ∀ s, ¬PresetTwice r s) (h : Handler) :
    ∃ f, Fills.build ⟨d, rules⟩ r h = .ok f :=
  exists_build _ h fun s hs hfact => honce s ⟨hs, hfact⟩

/-- Where fills can be made, a composition fails with what verification says of them. -/
theorem Matching.compose_eq_of_misfit (hm : Matching d r rules)
    (hhandled : d.jurisdiction ∈ handlers.ids) (honce : ∀ s, ¬PresetTwice r s) {e : Error}
    (he : ∀ h f, Fills.build ⟨d, rules⟩ r h = .ok f → f.verify r.slots = .error e) :
    compose handlers d r rules = .error e := by
  obtain ⟨h, hh⟩ := get?_of_mem_ids hhandled
  obtain ⟨f, hbuild⟩ : ∃ f, Fills.build ⟨d, rules⟩ r h = .ok f := exists_build_of_once honce h
  rw [hm.compose_eq hh, hbuild]
  exact Outcome.bind_eq_error_iff.2 (.inr ⟨f, rfl,
    Outcome.bind_eq_error_iff.2 (.inl (he h f hbuild))⟩)

/-- No composition has another verdict than its outcome. -/
theorem Verdict.compose_eq {x : Except Error Artifact}
    (hp : ∀ s ∈ r.presets.keys, r.slots.get? s = some .scalar)
    (hx : Verdict handlers d r rules x) : compose handlers d r rules = x := by
  cases hx with
  | otherRules h => exact compose_of_mismatch (if_pos h)
  | otherTemplate hrules h =>
    exact compose_of_mismatch ((if_neg (not_not.2 hrules)).trans (if_pos h))
  | noHandler hm h => exact hm.compose_eq_of_unhandled h
  | filledTwice hm hhandled hslot =>
    obtain ⟨h, hh⟩ := get?_of_mem_ids hhandled
    rw [hm.compose_eq hh, build_eq_error_iff.2 ⟨_, hslot, rfl⟩]
    rfl
  | unfilled hm hhandled honce hslot =>
    refine hm.compose_eq_of_misfit hhandled honce fun h f hbuild => ?_
    exact (verify_build_eq_error_iff hp hbuild).2 (.inl ⟨_, hslot, rfl⟩)
  | undeclared hm hhandled honce hcomplete hslot hnone =>
    refine hm.compose_eq_of_misfit hhandled honce fun h f hbuild => ?_
    obtain ⟨kind, hkind, _⟩ := hslot.1
    exact (verify_build_eq_error_iff hp hbuild).2
      (.inr ⟨hcomplete, _, kind, hslot, hkind, .inl ⟨hnone, rfl⟩⟩)
  | kindMismatch hm hhandled honce hcomplete hslot hsome hkind =>
    refine hm.compose_eq_of_misfit hhandled honce fun h f hbuild => ?_
    exact (verify_build_eq_error_iff hp hbuild).2
      (.inr ⟨hcomplete, _, _, hslot, hkind, .inr ⟨_, hsome, rfl⟩⟩)
  | residualMarker hcomposable htexts horder hbefore hmarked =>
    obtain ⟨h, f, hh, hbuild, hrender⟩ := htexts
    have hverify := (verify_build_ok_iff hp hbuild).2 ⟨hcomposable.complete, hcomposable.fits⟩
    rw [hcomposable.matching.compose_eq hh, hbuild]
    refine Outcome.bind_eq_error_iff.2 (.inr ⟨f, rfl, ?_⟩)
    refine Outcome.bind_eq_error_iff.2 (.inr ⟨(), hverify, Outcome.bind_eq_error_iff.2 (.inl ?_)⟩)
    refine mapM_eq_error_iff.2 ⟨_, _, _, horder, fun role' hrole' => ?_, ?_⟩
    · exact ⟨_, (renderBody_of_render (hrender role')).2.2 (hbefore role' hrole')⟩
    · exact (renderBody_of_render (hrender _)).1.2 hmarked
  | made hcomposable htexts hclean =>
    obtain ⟨h, f, hh, hbuild, hrender⟩ := htexts
    have hverify := (verify_build_ok_iff hp hbuild).2 ⟨hcomposable.complete, hcomposable.fits⟩
    refine compose_eq_ok_iff.2 ⟨h, f, _, ⟨hcomposable.matching.rules,
      hcomposable.matching.template, hh, hbuild, hverify, fun role => ?_⟩, rfl⟩
    have hbody := (renderBody_of_render (hrender role)).2.2 (hclean role)
    cases role with
    | primary => exact hbody
    | deploy => exact hbody
    | test => exact hbody

end

/-- For a template that comes out of a library, whatever has been registered there, the
outcome of a composition is its verdict and nothing else. -/
theorem compose_eq_iff_verdict {offers : List Offer} (hoffers : ∀ x ∈ offers, x.Read)
    {contractType jurisdiction : String} {r : Resolved}
    (hr : (Library.ofOffers offers).resolve contractType jurisdiction = .ok r) (handlers : Handlers)
    (d : Definition) (rules : Rules.RuleSet) (x : Except Error Artifact) :
    compose handlers d r rules = x ↔ Verdict handlers d r rules x := by
  have hsound := (Library.loaded_ofOffers hoffers).sound
  have hpresets := hsound.presets_declared hr
  constructor
  · rintro rfl
    exact verdict_compose (hsound.resolve hr).1 hpresets
  · exact fun hx => hx.compose_eq hpresets

/-! The block of the note is one that no fact fills. -/

def noteRules : Rules.RuleSet := ⟨"here", "note", [], [], ∅, ∅⟩

def noteDefinition : Definition := ⟨"note", "here", [], [], [], {}⟩

def noteHandler : Handler :=
  { id := "here", displayName := "Here", state := fun _ => {}, compliance := fun _ => [],
    dispute := fun _ => [] }

def noteHandlers : Handlers := ⟨Table.ofList [("here", noteHandler)]⟩

def noteShape (b : Template.Base) (o : Template.Override) : Bool :=
  ((Library.ofOffers (noteOffers b o)).resolve "note" "here").toOption.any fun r =>
    decide (r.slots.keys = ["clauses", "contract_type", "jurisdiction", "legal_requirements"] ∧
      r.presets.keys = [] ∧ pairOfTemplate r = ⟨"here", "note"⟩)

theorem noteShape_read : ∃ b o, Template.Base.read note.text note.name = .ok b ∧
    Template.Override.read noteOverride.text noteOverride.name = .ok o ∧ noteShape b o = true := by
  apply Builtin.pair_of_spelled
  · repeat (apply Text.Spelled.cons; exact rfl)
    exact .nil
  · repeat (apply Text.Spelled.cons; exact rfl)
    exact .nil
  · decide +kernel

theorem note_unfilled : ∃ b o r,
    (∀ x ∈ noteOffers b o, x.Read) ∧
      (Library.ofOffers (noteOffers b o)).resolve "note" "here" = .ok r ∧
      Verdict noteHandlers noteDefinition r noteRules (.error (.unfilled "clauses")) ∧
      compose noteHandlers noteDefinition r noteRules = .error (.unfilled "clauses") := by
  obtain ⟨b, o, hb, ho, hshape⟩ := noteShape_read
  obtain ⟨r, hr, hshape⟩ := (Option.any_eq_true _ _).1 hshape
  obtain ⟨hslots, hpresets, hpair⟩ := of_decide_eq_true hshape
  have hresolve := Builtin.ok_of_toOption hr
  have hoffers := noteOffers_read hb ho
  have hunfilled : Smallest (Unfilled r) "clauses" := by
    rw [Smallest, Unfilled, hslots, hpresets]
    refine ⟨by decide, fun s hs => ?_⟩
    rw [Unfilled, hslots] at hs
    have hs' : s = "clauses" := by
      obtain ⟨hs, hfact, _⟩ := hs
      simp only [List.mem_cons, List.not_mem_nil, or_false] at hs
      rcases hs with rfl | rfl | rfl | rfl
      · rfl
      · exact absurd (by decide) hfact
      · exact absurd (by decide) hfact
      · exact absurd (by decide) hfact
    rw [hs']
    exact String.lt_irrefl _
  have hverdict : Verdict noteHandlers noteDefinition r noteRules (.error (.unfilled "clauses")) :=
    .unfilled ⟨rfl, hpair⟩ List.mem_cons_self (fun s hs => by simp [PresetTwice, hpresets] at hs)
      hunfilled
  exact ⟨b, o, r, hoffers, hresolve, hverdict,
    (compose_eq_iff_verdict hoffers hresolve noteHandlers noteDefinition noteRules _).2 hverdict⟩

end Covenant.Artifact
