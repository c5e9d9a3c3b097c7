import Covenant.Proofs.Builtin.Documents
import Covenant.Proofs.Ident
import Covenant.Proofs.Template.Library

/-! The built-in template library. All its documents can be registered, so that it has
the three bases and the three overrides, and nothing else. -/
namespace Covenant.Builtin

open Template

theorem OverrideFor.problems {t j : String} {o : Override} {b : Base} (ho : OverrideFor t j o)
    (hb : BaseFor t b) : o.problems b = [] := by
  rw [Override.problems_eq_nil_iff, hb.slots, ho.scalars]
  refine ⟨?_, ?_⟩
  · rw [List.forall_mem_singleton]
    decide +kernel
  · intro e he
    obtain ⟨hslot, hrefs, _⟩ := ho.blocks e he
    refine ⟨hslot, ?_⟩
    rw [hrefs]
    intro ref href
    cases href

/-! ### The steps of registration -/

/-- A library with the built-in bases for some contract types and the built-in overrides
for some pairs. -/
structure Holds (types : List String) (pairs : List (String × String)) (l : Library) : Prop where
  sound : l.Sound
  base : ∀ t ∈ types, ∃ b, l.bases.get? t = some b ∧ BaseFor t b
  noBase : ∀ t, t ∉ types → l.bases.get? t = none
  overlay : ∀ p ∈ pairs, ∃ o, (l.overridesOf p.1).get? p.2 = some o ∧ OverrideFor p.1 p.2 o
  noOverlay : ∀ t j, (t, j) ∉ pairs → (l.overridesOf t).get? j = none

theorem holds_empty : Holds [] [] Library.empty where
  sound := Library.sound_empty
  base := by simp
  noBase := fun _ _ => rfl
  overlay := by simp
  noOverlay := fun _ _ _ => rfl

variable {types : List String} {pairs : List (String × String)} {l : Library}

theorem Holds.mem_types (h : Holds types pairs l) {t : String} {b : Base}
    (hget : l.bases.get? t = some b) : t ∈ types := by
  by_contra ht
  rw [h.noBase t ht] at hget
  cases hget

theorem Holds.baseFor (h : Holds types pairs l) {t : String} {b : Base}
    (hget : l.bases.get? t = some b) : BaseFor t b := by
  obtain ⟨b', hb', hfor⟩ := h.base t (h.mem_types hget)
  rw [hb'] at hget
  exact Option.some.inj hget ▸ hfor

theorem Holds.overrideFor (h : Holds types pairs l) {t j : String} {o : Override}
    (hget : (l.overridesOf t).get? j = some o) : OverrideFor t j o := by
  by_cases hp : (t, j) ∈ pairs
  · obtain ⟨o', ho', hfor⟩ := h.overlay (t, j) hp
    rw [ho'] at hget
    exact Option.some.inj hget ▸ hfor
  · rw [h.noOverlay t j hp] at hget
    cases hget

theorem Holds.register (h : Holds types pairs l) {t : String} {b : Base} (hb : BaseFor t b)
    (hproblems : b.problems = []) (hnew : t ∉ types) :
    ∃ l', l.register b = .ok l' ∧ Holds (t :: types) pairs l' := by
  have hname := hb.name
  have hregister : l.register b = .ok { l with bases := l.bases.insert b.name b } := by
    rw [Library.register_eq, Table.contains, hname, h.noBase t hnew]
    refine accept_eq_ok_iff.2 ⟨?_, rfl⟩
    rw [List.flatMap_eq_nil_iff]
    intro o ho
    obtain ⟨⟨j, _⟩, he, rfl⟩ := List.mem_map.1 ho
    exact (h.overrideFor (Table.mem_entries.1 he)).problems hb
  refine ⟨_, hregister, ⟨h.sound.register hproblems hregister, ?_, ?_, h.overlay, h.noOverlay⟩⟩
  · intro u hu
    rw [Table.get?_insert, hname]
    split
    · next heq => exact ⟨b, rfl, heq ▸ hb⟩
    · next hne => exact h.base u ((List.mem_cons.1 hu).resolve_left (Ne.symm hne))
  · intro u hu
    rw [List.mem_cons, not_or] at hu
    rw [Table.get?_insert, hname, if_neg (Ne.symm hu.1)]
    exact h.noBase u hu.2

theorem Holds.registerOverride (h : Holds types pairs l) {t j : String} {o : Override}
    (ho : OverrideFor t j o) (hnew : (t, j) ∉ pairs) :
    ∃ l', l.registerOverride o = .ok l' ∧ Holds types ((t, j) :: pairs) l' := by
  have htype := ho.contractType
  have hjurisdiction := ho.jurisdiction
  have hregister : l.registerOverride o = .ok { l with
      overrides := l.overrides.insert o.contractType
        ((l.overridesOf o.contractType).insert o.jurisdiction o) } := by
    rw [Library.registerOverride_eq, Table.contains, htype, hjurisdiction, h.noOverlay t j hnew]
    refine accept_eq_ok_iff.2 ⟨?_, rfl⟩
    cases hbase : l.bases.get? t with
    | none => rfl
    | some b => exact ho.problems (h.baseFor hbase)
  refine ⟨_, hregister, ⟨h.sound.registerOverride hregister, h.base, h.noBase, ?_, ?_⟩⟩
  · rintro ⟨u, k⟩ hp
    rw [Library.get?_overridesOf_insert, htype, hjurisdiction]
    split
    · next heq =>
      obtain ⟨rfl, rfl⟩ := heq
      exact ⟨o, rfl, ho⟩
    · next hne =>
      refine h.overlay (u, k) ((List.mem_cons.1 hp).resolve_left fun heq => ?_)
      cases heq
      exact hne ⟨rfl, rfl⟩
  · intro u k hp
    rw [List.mem_cons, not_or] at hp
    rw [Library.get?_overridesOf_insert, htype, hjurisdiction, if_neg]
    · exact h.noOverlay u k hp.2
    · rintro ⟨rfl, rfl⟩
      exact hp.1 rfl

/-! ### The library -/

/-- The contract types with a built-in base. -/
def contractTypes : List String := ["escrow", "insurance", "settlement"]

/-- The pairs with a built-in override, by contract type. -/
def overriddenPairs : List (String × String) :=
  [("escrow", "india"), ("insurance", "eu"), ("settlement", "us")]

theorem templates?_ok : ∃ l, templates? = .ok l ∧
    Holds contractTypes.reverse overriddenPairs.reverse l := by
  obtain ⟨e, he, hescrow⟩ := escrow_read
  obtain ⟨i, hi, hinsurance⟩ := insurance_read
  obtain ⟨s, hs, hsettlement⟩ := settlement_read
  obtain ⟨oe, hoe, hindia⟩ := indiaEscrow_read
  obtain ⟨oi, hoi, heu⟩ := euInsurance_read
  obtain ⟨os, hos, hus⟩ := usSettlement_read
  obtain ⟨l₁, h₁, hl₁⟩ := holds_empty.register hescrow (Base.problems_of_read he) (by simp)
  obtain ⟨l₂, h₂, hl₂⟩ := hl₁.register hinsurance (Base.problems_of_read hi) (by decide)
  obtain ⟨l₃, h₃, hl₃⟩ := hl₂.register hsettlement (Base.problems_of_read hs) (by decide)
  obtain ⟨l₄, h₄, hl₄⟩ := hl₃.registerOverride hindia (by simp)
  obtain ⟨l₅, h₅, hl₅⟩ := hl₄.registerOverride heu (by decide)
  obtain ⟨l₆, h₆, hl₆⟩ := hl₅.registerOverride hus (by decide)
  have hbases : bases.foldlM (fun l d => do l.register (← Base.read d.text d.name)) Library.empty =
      .ok l₃ :=
    Outcome.foldlM_cons_of_ok (Outcome.bind_eq_ok_iff.2 ⟨e, he, h₁⟩) <|
      Outcome.foldlM_cons_of_ok (Outcome.bind_eq_ok_iff.2 ⟨i, hi, h₂⟩) <|
        Outcome.foldlM_cons_of_ok (Outcome.bind_eq_ok_iff.2 ⟨s, hs, h₃⟩) rfl
  have hoverrides : overrides.foldlM
      (fun l d => do l.registerOverride (← Override.read d.text d.name)) l₃ = .ok l₆ :=
    Outcome.foldlM_cons_of_ok (Outcome.bind_eq_ok_iff.2 ⟨oe, hoe, h₄⟩) <|
      Outcome.foldlM_cons_of_ok (Outcome.bind_eq_ok_iff.2 ⟨oi, hoi, h₅⟩) <|
        Outcome.foldlM_cons_of_ok (Outcome.bind_eq_ok_iff.2 ⟨os, hos, h₆⟩) rfl
  exact ⟨l₆, Outcome.bind_eq_ok_iff.2 ⟨l₃, hbases, hoverrides⟩, hl₆⟩

theorem templates_eq {l : Library} (h : templates? = .ok l) : templates = l := by
  unfold templates
  rw [h]
  rfl

theorem templates_holds : Holds contractTypes.reverse overriddenPairs.reverse templates := by
  obtain ⟨l, hl, hholds⟩ := templates?_ok
  rwa [templates_eq hl]

/-! ### Resolved templates -/

/-- What the built-in library resolves a pair of identifiers to. -/
structure Serves (t j : String) (r : Resolved) : Prop where
  sound : r.Sound
  base : BaseFor t r.base
  overlay : ∀ o, r.overlay = some o → OverrideFor t j o
  jurisdiction : r.jurisdiction = j

theorem Holds.resolve (h : Holds types pairs l) {t j : String} (ht : t ∈ types)
    (hident : Ident.isIdent t = true) (hj : Ident.isIdent j = true) :
    ∃ r, l.resolve t j = .ok r ∧ Serves t j r := by
  obtain ⟨b, hb, hfor⟩ := h.base t ht
  have hget : l.get? t = some b := by
    rw [Library.get?, Ident.normalize_of_isIdent hident, hb]
  have hresolve : l.resolve t j = .ok ⟨b, l.getOverride? t j, Ident.normalize j⟩ :=
    Library.resolve_eq_ok_iff.2 ⟨hget, rfl, rfl⟩
  refine ⟨_, hresolve, ⟨(h.sound.resolve hresolve).1, hfor, ?_, ?_⟩⟩
  · intro o ho
    have ho : l.getOverride? t j = some o := ho
    rw [Library.getOverride?, Ident.normalize_of_isIdent hident,
      Ident.normalize_of_isIdent hj] at ho
    exact h.overrideFor ho
  · exact Ident.normalize_of_isIdent hj

/-- The text that a built-in template adds to a block is a block of a built-in override. -/
theorem mem_blocks_of_extension {t j : String} {r : Resolved} (hr : templates.resolve t j = .ok r)
    {slot : String} {text : Markup} (htext : r.extension? slot = some text) :
    ∃ o, OverrideFor (Ident.normalize t) (Ident.normalize j) o ∧ (slot, text) ∈ o.blocks.entries := by
  obtain ⟨_, hoverlay, _⟩ := Library.resolve_eq_ok_iff.1 hr
  obtain ⟨o, ho, hblock⟩ := Option.bind_eq_some_iff.1 htext
  rw [hoverlay] at ho
  exact ⟨o, templates_holds.overrideFor ho, Table.mem_entries.2 hblock⟩

/-- What a built-in override adds to a block has no slots in it. -/
theorem references_of_extension {t j : String} {r : Resolved} (hr : templates.resolve t j = .ok r)
    {slot : String} {text : Markup} (htext : r.extension? slot = some text) :
    text.inlines.flatMap Inline.references = [] := by
  obtain ⟨o, ho, hmem⟩ := mem_blocks_of_extension hr htext
  have hnone : text.references = [] := (ho.blocks _ hmem).2.1
  rw [List.eq_nil_iff_forall_not_mem]
  intro ref href
  have hmem := Markup.mem_references_of_inlines href
  rw [hnone] at hmem
  cases hmem

/-- No name in a built-in body is spelled like the function of a condition. -/
theorem names_of_body {t j : String} {r : Resolved} (hr : templates.resolve t j = .ok r)
    (role : BodyRole) : ∀ word ∈ Code.names (r.body role).source, Code.isFunctionName word = false :=
  (templates_holds.baseFor (Library.resolve_eq_ok_iff.1 hr).1).names _ (mem_toList r.base.bodies role)

theorem names_of_extension {t j : String} {r : Resolved} (hr : templates.resolve t j = .ok r)
    {slot : String} {text : Markup} (htext : r.extension? slot = some text) :
    ∀ word ∈ Code.names text.source, Code.isFunctionName word = false := by
  obtain ⟨o, ho, hmem⟩ := mem_blocks_of_extension hr htext
  exact ho.names _ hmem

namespace Serves

variable {t j : String} {r : Resolved}

theorem presets_keys (h : Serves t j r) : r.presets.keys = presetSlots := by
  unfold Resolved.presets
  split
  · next o ho =>
    rw [Table.keys_merge, h.base.presets]
    intro k hk
    rw [(h.overlay o ho).scalars, List.mem_singleton] at hk
    rw [hk, h.base.presets]
    exact List.mem_cons_self
  · exact h.base.presets

theorem presets_unmarked (h : Serves t j r) :
    ∀ text ∈ r.presets.values, Artifact.hasMarker text.toList = false := by
  unfold Resolved.presets
  split
  · next o ho =>
    intro text htext
    rcases Table.mem_values_merge htext with htext | htext
    · exact h.base.unmarked text htext
    · exact (h.overlay o ho).unmarked text htext
  · exact h.base.unmarked

/-- The slots declared are the slots filled. -/
theorem slots_eq (h : Serves t j r) : r.slots = Table.ofList (Artifact.fillKinds r) := by
  rw [Artifact.fillKinds, h.presets_keys]
  exact h.base.slots

theorem presets_free (h : Serves t j r) :
    ∀ slot ∈ r.presets.keys, slot ∉ Artifact.factKinds.map (·.1) := by
  rw [h.presets_keys]
  decide +kernel

theorem provenance_unmarked (h : Serves t j r) (ht : Ident.isIdent t = true) :
    Artifact.hasMarker r.provenance.text.toList = false := by
  have hname : '{' ∉ t.toList := by
    intro hmem
    have hpart := Ident.isPart_of_isIdent ht _ hmem
    cases hpart
  refine Artifact.unmarked_of_not_mem ?_
  rw [Provenance.text, String.toList_append, String.toList_append, String.toList_append]
  simp only [List.mem_append, not_or]
  rw [Resolved.provenance]
  simp only
  rw [h.base.name, h.base.version]
  refine ⟨⟨⟨hname, by decide⟩, by decide⟩, ?_⟩
  cases ho : r.overlay with
  | none => decide
  | some o =>
    rw [Option.map_some, (h.overlay o ho).version]
    decide

end Serves
end Covenant.Builtin
