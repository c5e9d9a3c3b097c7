import Covenant.Proofs.Artifact.Facts
import Covenant.Proofs.Artifact.Sealing
import Covenant.Proofs.Artifact.Seams
import Covenant.Proofs.Artifact.Verdict

/-! What makes a composition fail. Apart from slots that do not fit, it fails where a marker
remains in a body. The contract has no part in a marker that the templates or the handler give:
they stain every contract alike. Any other marker arises where braces meet, and in sealed bodies
they never do. -/
namespace Covenant.Artifact

open Law (Context Handler Handlers)
open Template (Resolved)

/-! ### Fills with markers -/

/-- A marker stands in what the templates and the handler give to a contract. -/
def Stained (r : Resolved) (h : Handler) : Prop :=
  Marked r.provenance.text.toList ∨ (∃ e ∈ r.presets.entries, Marked e.2.toList) ∨
    ∃ ctx, ∃ l ∈ h.lines ctx, Marked l.toList

theorem not_marked_of_contained {cs : List Char} (h : Text.Contained cs) : ¬Marked cs :=
  unmarked_iff.1 (unmarked_of_clean h.clean)

/-- A known handler gives lines with markers to every contract or to none. -/
theorem marked_line_iff {h : Handler} (hh : h.Known) (ctx : Context) :
    (∃ ctx', ∃ l ∈ h.lines ctx', Marked l.toList) ↔ ∃ l ∈ h.lines ctx, Marked l.toList := by
  refine ⟨?_, fun h => ⟨ctx, h⟩⟩
  rintro ⟨ctx', l, hl, hmarked⟩
  rcases hh with ⟨r, hr, rfl⟩ | hfixed
  · exact absurd hmarked
      (not_marked_of_contained ((Law.contained_builtin hr).lines ctx' l hl))
  · exact ⟨l, hfixed.lines_eq ctx' ctx ▸ hl, hmarked⟩

/-- A block has a marker in it exactly when the handler gave a line that has one. -/
theorem marked_blocks_iff {ctx : Context} {h : Handler} (hctx : Identified ctx) :
    (∃ e ∈ blocks ctx h, ∃ l ∈ e.2, Marked l.toList) ↔ ∃ l ∈ h.lines ctx, Marked l.toList := by
  have hindented : ∀ l : String, Marked ("  " ++ l).toList ↔ Marked l.toList := by
    intro l
    rw [String.toList_append]
    exact marked_append_of_not_mem (by decide)
  constructor
  · rintro ⟨e, he, l, hl, hmarked⟩
    by_contra hnone
    push Not at hnone
    exact forall_blocks hctx (fun _ => not_marked_of_contained) (fun l => mt (hindented l).1)
      hnone e he l hl hmarked
  · rintro ⟨l, hl, hmarked⟩
    obtain ⟨e, he, hmem | hmem⟩ := exists_block_of_line hl
    · exact ⟨e, he, l, hmem, hmarked⟩
    · exact ⟨e, he, _, hmem, (hindented l).2 hmarked⟩

theorem marked_scalars_iff {ctx : Context} {r : Resolved} {h : Handler} (hctx : Identified ctx) :
    (∃ e ∈ scalars ctx r h, Marked e.2.toList) ↔ Marked r.provenance.text.toList := by
  constructor
  · rintro ⟨e, he, hmarked⟩
    rcases contained_scalars r h hctx e he with rfl | hcontained
    · exact hmarked
    · exact absurd hmarked (not_marked_of_contained hcontained)
  · intro hmarked
    exact ⟨("template_version", r.provenance.text), by simp [scalars], hmarked⟩

theorem exists_stains_iff {ctx : Context} {r : Resolved} {h : Handler} {f : Fills}
    (hctx : Identified ctx) (hh : h.Known) (hf : Fills.build ctx r h = .ok f) :
    (∃ slot, f.Stains slot) ↔ Stained r h := by
  have hmem : (∃ slot, f.Stains slot) ↔
      ∃ e ∈ facts ctx r h ++ presetFills r, ¬e.2.Unmarked := by
    simp only [Fills.Stains, get?_build hf, Prod.exists]
  have hscalar : ∀ t : String, ¬(Fill.scalar t).Unmarked ↔ Marked t.toList :=
    fun t => by simp [Fill.Unmarked, hasMarker_eq_true_iff]
  have hblock : ∀ ls : List String, ¬(Fill.block ls).Unmarked ↔ ∃ l ∈ ls, Marked l.toList :=
    fun ls => by simp [Fill.Unmarked, hasMarker_eq_true_iff]
  rw [hmem, Stained, ← marked_scalars_iff (h := h) hctx, marked_line_iff hh ctx,
    ← marked_blocks_iff hctx, facts, presetFills]
  simp only [List.mem_append, List.mem_map, or_and_right, exists_or, exists_exists_and_eq_and,
    hscalar, hblock, or_assoc]
  rw [or_comm (a := ∃ a ∈ blocks ctx h, _)]

/-! ### Compositions that fail -/

/-- The slots of the template are not those of the facts and presets, each once and with its
kind. -/
def Mismade (r : Resolved) : Prop := ∃ s, PresetTwice r s ∨ Unfilled r s ∨ Misfit r s

theorem not_mismade_of_slots {r : Resolved}
    (hfree : ∀ slot ∈ r.presets.keys, slot ∉ factKinds.map (·.1))
    (hslots : r.slots = Table.ofList (fillKinds r)) : ¬Mismade r := by
  have hget : ∀ s kind, r.slots.get? s = some kind ↔ (s, kind) ∈ fillKinds r := by
    intro s kind
    rw [hslots]
    exact Table.get?_ofList_eq_some_iff ((fillKinds_names_nodup_iff r).2 hfree)
  rintro ⟨s, ⟨hs, hfact⟩ | ⟨hs, hfact, hpreset⟩ | ⟨kind, hfact, hne⟩⟩
  · exact hfree s hs hfact
  · obtain ⟨kind, hkind⟩ := Option.isSome_iff_exists.1 (Table.mem_keys.1 hs)
    have hname := List.mem_map_of_mem (f := (·.1)) ((hget s kind).1 hkind)
    rw [fillKinds_names, List.mem_append] at hname
    exact hname.elim hfact hpreset
  · exact hne ((hget s kind).2 (List.mem_append_left _ hfact))

variable {handlers : Handlers} {d : Definition} {r : Resolved} {rules : Rules.RuleSet}

/-- A rendered body has a marker. -/
def Remains (d : Definition) (rules : Rules.RuleSet) (r : Resolved) (h : Handler) : Prop :=
  ∃ f role text, Fills.build ⟨d, rules⟩ r h = .ok f ∧ f.render r (r.body role) = .ok text ∧
    Marked text

/-- Braces meet at a seam of a body. -/
def HasSeam (d : Definition) (rules : Rules.RuleSet) (r : Resolved) (h : Handler) : Prop :=
  ∃ f role, Fills.build ⟨d, rules⟩ r h = .ok f ∧ f.Seam r (r.body role)

theorem compose_error_iff (hr : r.Sound) (hp : ∀ s ∈ r.presets.keys, r.slots.get? s = some .scalar)
    (hm : Matching d r rules) : (∃ e, compose handlers d r rules = .error e) ↔
      d.jurisdiction ∉ handlers.ids ∨ Mismade r ∨
        ∃ h, handlers.get? d.jurisdiction = some h ∧ Remains d rules r h := by
  constructor
  · rintro ⟨e, he⟩
    have hverdict : Verdict handlers d r rules (compose handlers d r rules) := verdict_compose hr hp
    rw [he] at hverdict
    cases hverdict with
    | otherRules h => exact absurd hm.rules h
    | otherTemplate _ h => exact absurd hm.template h
    | noHandler _ h => exact .inl h
    | filledTwice _ _ h => exact .inr (.inl ⟨_, .inl h.1⟩)
    | unfilled _ _ _ h => exact .inr (.inl ⟨_, .inr (.inl h.1)⟩)
    | undeclared _ _ _ _ h => exact .inr (.inl ⟨_, .inr (.inr h.1)⟩)
    | kindMismatch _ _ _ _ h => exact .inr (.inl ⟨_, .inr (.inr h.1)⟩)
    | residualMarker _ htexts _ _ hmarked =>
      obtain ⟨h, f, hh, hf, hrender⟩ := htexts
      exact .inr (.inr ⟨h, hh, f, _, _, hf, hrender _, hmarked⟩)
  · intro hfails
    cases hcompose : compose handlers d r rules with
    | error e => exact ⟨e, rfl⟩
    | ok a =>
      obtain ⟨h, f, bodies, hmade, _⟩ := compose_eq_ok_iff.1 hcompose
      exfalso
      rcases hfails with hunhandled | ⟨s, hs⟩ | ⟨h', hh', f', role, text, hf', htext, hmarked⟩
      · rw [← get?_eq_none_iff, hmade.handler] at hunhandled
        cases hunhandled
      · obtain ⟨hcomplete, hfits⟩ := (verify_build_ok_iff hp hmade.built).1 hmade.verified
        rcases hs with hs | hs | hs
        · exact (build_eq_ok_iff.1 hmade.built).1 s hs.1 hs.2
        · exact hcomplete s hs
        · exact hfits s hs
      · obtain rfl := Option.some.inj (hmade.handler.symm.trans hh')
        obtain rfl := Except.ok.inj (hmade.built.symm.trans hf')
        obtain ⟨text', htext', hclean, _⟩ := renderBody_eq_ok_iff.1 (hmade.rendered role)
        obtain rfl := Except.ok.inj (htext.symm.trans htext')
        exact unmarked_iff.1 hclean hmarked

/-- A marker remains when the templates or the handler gave one, or when braces meet. -/
theorem remains_iff {l : Template.Library} (hl : l.Loaded) {contractType jurisdiction : String}
    (hr : l.resolve contractType jurisdiction = .ok r) (hctx : Identified ⟨d, rules⟩) {h : Handler}
    (hh : h.Known) (hmade : ¬Mismade r) :
    Remains d rules r h ↔ Stained r h ∨ HasSeam d rules r h := by
  have hpresets := hl.sound.presets_declared hr
  obtain ⟨f, hf⟩ := exists_build ⟨d, rules⟩ h fun s hs hfact => hmade ⟨s, .inl ⟨hs, hfact⟩⟩
  have hverify := (verify_build_ok_iff hpresets hf).2
    ⟨fun s hs => hmade ⟨s, .inr (.inl hs)⟩, fun s hs => hmade ⟨s, .inr (.inr hs)⟩⟩
  have hfits := Fills.verify_eq_ok_iff.1 hverify
  have hmarked : ∀ {role text}, f.render r (r.body role) = .ok text → (Marked text ↔
      (∃ ref, r.Reaches (r.body role) ref ∧ f.Stains ref.name.value) ∨ f.Seam r (r.body role)) :=
    Fills.marked_render_iff (hl.clear hr) (hl.inlineExtensions hr)
  rw [← exists_stains_iff hctx hh hf]
  constructor
  · rintro ⟨f', role, text, hf', htext, hmark⟩
    obtain rfl := Except.ok.inj (hf.symm.trans hf')
    rcases (hmarked htext).1 hmark with ⟨ref, _, hstains⟩ | hseam
    · exact .inl ⟨_, hstains⟩
    · exact .inr ⟨f, role, hf, hseam⟩
  · rintro (⟨slot, fill, hget, hfill⟩ | ⟨f', role, hf', hseam⟩)
    · have hslot : r.base.slots.get? slot = some fill.kind := by
        rw [← Resolved.slots, ← hfits slot, hget]
        rfl
      obtain ⟨hbase, _⟩ := Template.Library.resolve_eq_ok_iff.1 hr
      obtain ⟨role, ref, href, rfl, _⟩ :=
        Template.Base.exists_reference_of_declared (hl.sound.bases _ _ hbase).2 hslot
      obtain ⟨text, htext⟩ := Fills.render_of_fits (hl.sound.resolve hr).1 hfits role
      have hstains : f.Stains ref.name.value := ⟨fill, hget, hfill⟩
      exact ⟨f, role, text, hf, htext, (hmarked htext).2 (.inl ⟨ref, .body href, hstains⟩)⟩
    · obtain rfl := Except.ok.inj (hf.symm.trans hf')
      obtain ⟨text, htext⟩ := Fills.render_of_fits (hl.sound.resolve hr).1 hfits role
      exact ⟨f, role, text, hf, htext, (hmarked htext).2 (.inr hseam)⟩

theorem unmarked_of_not_stained {h : Handler} {f : Fills} (hctx : Identified ⟨d, rules⟩)
    (hh : h.Known) (hf : Fills.build ⟨d, rules⟩ r h = .ok f) (hclean : ¬Stained r h) : f.Unmarked := by
  intro slot fill hget
  by_contra hmarked
  exact hclean ((exists_stains_iff hctx hh hf).1 ⟨slot, fill, hget, hmarked⟩)

/-- The bodies are sealed, and so is what the override adds to their blocks. -/
structure AllSealed (r : Resolved) : Prop where
  bodies : ∀ role, isSealed (r.body role).segments = true
  extensions : ∀ name t, r.extension? name = some t → isSealed (t.inlines.map .inline) = true

theorem AllSealed.not_remains {h : Handler} (hr : AllSealed r) (hctx : Identified ⟨d, rules⟩)
    (hh : h.Known) (hclean : ¬Stained r h) : ¬Remains d rules r h := by
  rintro ⟨f, role, text, hf, htext, hmarked⟩
  have hunmarked := unmarked_of_not_stained hctx hh hf hclean
  have hextensions : f.UnmarkedExtensions r := fun name t ht _ he =>
    unmarked_of_isSealed_inlines hunmarked (hr.extensions name t ht) he
  exact unmarked_iff.1 (unmarked_of_isSealed hunmarked hextensions (hr.bodies role) htext) hmarked

end Covenant.Artifact
