import Mathlib.Data.List.Find
import Covenant.Proofs.Artifact.Filling

/-! Fills that cannot be made, or do not fit. Presets come after the facts, and tables are
listed in the order of their names, so that what is reported is the smallest slot that is
preset and filled from a fact, the smallest one without a fill, or the smallest one whose
fact is not what the template declares. -/
namespace Covenant.Artifact

open Law (Context Handler)
open Template (SlotKind Resolved)

/-! ### The smallest of some names -/

/-- The first in their order of the names with a property. -/
def Smallest (P : String → Prop) (s : String) : Prop := P s ∧ ∀ t, P t → ¬t < s

theorem Smallest.congr {P Q : String → Prop} (h : ∀ s, P s ↔ Q s) {s : String} :
    Smallest P s ↔ Smallest Q s := by
  simp only [Smallest, h]

/-- In a list sorted by names, the first member with a property has the smallest name. -/
theorem first_iff {α : Type} (name : α → String) {l : List α}
    (hl : l.Pairwise fun a b => name a < name b) {P : α → Prop} {e : α} :
    (∃ as bs, l = as ++ e :: bs ∧ ∀ a ∈ as, ¬P a) ↔ e ∈ l ∧ ∀ a ∈ l, P a → ¬name a < name e := by
  constructor
  · rintro ⟨as, bs, rfl, has⟩
    refine ⟨by simp, fun a ha hp hlt => ?_⟩
    rw [List.pairwise_append, List.pairwise_cons] at hl
    rcases List.mem_append.1 ha with ha | ha
    · exact has a ha hp
    · rcases List.mem_cons.1 ha with rfl | ha
      · exact String.lt_irrefl _ hlt
      · exact String.lt_irrefl _ (String.lt_trans hlt (hl.2.1.1 a ha))
  · rintro ⟨he, hsmallest⟩
    obtain ⟨as, bs, rfl⟩ := List.append_of_mem he
    refine ⟨as, bs, rfl, fun a ha hp => hsmallest a (List.mem_append_left _ ha) hp ?_⟩
    exact (List.pairwise_append.1 hl).2.2 a ha e List.mem_cons_self

theorem find?_eq_some_iff_smallest {l : List String} (hl : l.Pairwise (· < ·)) {p : String → Bool}
    {s : String} : l.find? p = some s ↔ Smallest (fun t => t ∈ l ∧ p t = true) s := by
  have hfirst := first_iff id hl (P := fun t => p t = true) (e := s)
  simp only [Bool.not_eq_true, id] at hfirst
  rw [List.find?_eq_some_iff_append]
  simp only [Bool.not_eq_true', hfirst, Smallest, and_imp]
  tauto

/-! ### Filling twice -/

namespace Fills

theorem insertAll_append (f : Fills) (as bs : List (String × Fill)) :
    f.insertAll (as ++ bs) = f.insertAll as >>= fun g => g.insertAll bs := by
  induction as generalizing f with
  | nil => rfl
  | cons a as ih =>
    obtain ⟨slot, fill⟩ := a
    rw [List.cons_append, insertAll, insertAll]
    cases f.insert slot fill with
    | error e => rfl
    | ok g => exact ih g

/-- Of fills for different slots, the first for a slot that has a fill is refused. -/
theorem insertAll_eq_error_iff {f : Fills} {fills : List (String × Fill)}
    (h : (fills.map (·.1)).Nodup) {e : Error} :
    f.insertAll fills = .error e ↔
      ∃ slot, (fills.map (·.1)).find? (fun s => f.bySlot.contains s) = some slot ∧
        e = .filledTwice slot := by
  induction fills generalizing f with
  | nil => simp [insertAll]
  | cons a rest ih =>
    obtain ⟨slot, fill⟩ := a
    rw [List.map_cons, List.nodup_cons] at h
    rw [insertAll, insert, List.map_cons, List.find?_cons]
    cases hfilled : f.bySlot.contains slot with
    | true => simp [eq_comm]
    | false =>
      have hcontains : ∀ s ∈ rest.map (·.1),
          (f.bySlot.insert slot fill).contains s = f.bySlot.contains s := by
        intro s hs
        have hne : slot ≠ s := fun heq => h.1 (heq ▸ hs)
        rw [Table.contains_insert]
        simp [hne]
      simp only [Bool.false_eq_true, if_false, ih h.2]
      rw [List.find?_congr hcontains]

theorem contains_ofList (es : List (String × Fill)) (h : (es.map (·.1)).Nodup) {slot : String} :
    (Table.ofList es).contains slot = true ↔ slot ∈ es.map (·.1) := by
  rw [Table.contains, Option.isSome_iff_exists, List.mem_map]
  simp only [Table.get?_ofList_eq_some_iff h]
  constructor
  · rintro ⟨fill, hmem⟩
    exact ⟨_, hmem, rfl⟩
  · rintro ⟨⟨_, fill⟩, hmem, rfl⟩
    exact ⟨fill, hmem⟩

theorem insertAll_facts (ctx : Context) (r : Resolved) (h : Handler) :
    empty.insertAll (facts ctx r h) = .ok ⟨Table.ofList (facts ctx r h)⟩ :=
  insertAll_eq_ok_iff.2 ⟨factKinds_names_nodup, fun _ _ => rfl, rfl⟩

end Fills

/-- The template presets a slot that a fact fills. -/
def PresetTwice (r : Resolved) (s : String) : Prop :=
  s ∈ r.presets.keys ∧ s ∈ factKinds.map (·.1)

/-- The fills fail to be made at the smallest slot that is preset and filled from a fact. -/
theorem build_eq_error_iff {ctx : Context} {r : Resolved} {h : Handler} {e : Error} :
    Fills.build ctx r h = .error e ↔
      ∃ slot, Smallest (PresetTwice r) slot ∧ e = .filledTwice slot := by
  have hnames : (presetFills r).map (·.1) = r.presets.keys := by
    rw [presetFills, List.map_map]
    rfl
  have hnodup : ((presetFills r).map (·.1)).Nodup := by
    rw [hnames]
    exact r.presets.keys_sorted.imp String.ne_of_lt
  rw [Fills.build, Fills.insertAll_append, Fills.insertAll_facts]
  refine (Fills.insertAll_eq_error_iff hnodup).trans ?_
  rw [hnames]
  simp only [find?_eq_some_iff_smallest r.presets.keys_sorted,
    Fills.contains_ofList (facts ctx r h) factKinds_names_nodup, facts_names]
  rfl

/-! ### Fills that do not fit -/

namespace Fills

theorem misfit?_eq_some_iff {slots : Table SlotKind} {slot : String} {fill : Fill} {e : Error} :
    misfit? slots slot fill = some e ↔ slots.get? slot ≠ some fill.kind ∧
      ((slots.get? slot = none ∧ e = .undeclared slot) ∨
        ∃ declared, slots.get? slot = some declared ∧
          e = .kindMismatch slot declared fill.kind) := by
  unfold misfit?
  cases slots.get? slot with
  | none => simp [eq_comm]
  | some declared =>
    by_cases hkind : declared = fill.kind
    · simp [hkind]
    · simp [hkind, eq_comm]

/-- The slot is filled, and it is not declared or is declared with another kind. -/
def Misfilled (f : Fills) (slots : Table SlotKind) (slot : String) : Prop :=
  ∃ fill, f.get? slot = some fill ∧ slots.get? slot ≠ some fill.kind

theorem findSome?_misfit {f : Fills} {slots : Table SlotKind} {e : Error} :
    f.bySlot.entries.findSome? (fun a => misfit? slots a.1 a.2) = some e ↔
      ∃ slot fill, Smallest (f.Misfilled slots) slot ∧ f.get? slot = some fill ∧
        ((slots.get? slot = none ∧ e = .undeclared slot) ∨
          ∃ declared, slots.get? slot = some declared ∧
            e = .kindMismatch slot declared fill.kind) := by
  have hfirst := fun a => first_iff Prod.fst f.bySlot.sorted
    (P := fun a => misfit? slots a.1 a.2 ≠ none) (e := a)
  rw [List.findSome?_eq_some_iff]
  constructor
  · rintro ⟨as, ⟨slot, fill⟩, bs, heq, ha, has⟩
    obtain ⟨hmem, hsmallest⟩ :=
      (hfirst (slot, fill)).1 ⟨as, bs, heq, fun x hx hne => hne (has x hx)⟩
    have hget := Table.mem_entries.1 hmem
    obtain ⟨hkind, herror⟩ := misfit?_eq_some_iff.1 ha
    refine ⟨slot, fill, ⟨⟨fill, hget, hkind⟩, ?_⟩, hget, herror⟩
    rintro s ⟨fill', hget', hkind'⟩
    exact hsmallest (s, fill') (Table.mem_entries.2 hget') (mt misfit?_eq_none_iff.1 hkind')
  · rintro ⟨slot, fill, ⟨⟨fill', hget', hkind⟩, hsmallest⟩, hget, herror⟩
    obtain rfl : fill' = fill := Option.some.inj (hget'.symm.trans hget)
    obtain ⟨as, bs, heq, has⟩ := (hfirst (slot, fill')).2 ⟨Table.mem_entries.2 hget,
      fun a ha hne => hsmallest a.1
        ⟨a.2, Table.mem_entries.1 ha, mt misfit?_eq_none_iff.2 hne⟩⟩
    exact ⟨as, (slot, fill'), bs, heq, misfit?_eq_some_iff.2 ⟨hkind, herror⟩,
      fun x hx => not_not.1 (has x hx)⟩

/-- What is reported of fills that do not fit: the smallest declared slot without a fill, or if
there is none the smallest slot that is filled and not declared so. -/
theorem verify_eq_error_iff {f : Fills} {slots : Table SlotKind} {e : Error} :
    f.verify slots = .error e ↔
      (∃ slot, Smallest (fun s => s ∈ slots.keys ∧ f.get? s = none) slot ∧ e = .unfilled slot) ∨
        (∀ s ∈ slots.keys, f.get? s ≠ none) ∧
          ∃ slot fill, Smallest (f.Misfilled slots) slot ∧ f.get? slot = some fill ∧
            ((slots.get? slot = none ∧ e = .undeclared slot) ∨
              ∃ declared, slots.get? slot = some declared ∧
                e = .kindMismatch slot declared fill.kind) := by
  have hmissing : ∀ s, f.missing? slots = some s ↔
      Smallest (fun s => s ∈ slots.keys ∧ f.get? s = none) s := by
    intro s
    rw [missing?, find?_eq_some_iff_smallest slots.keys_sorted]
    simp [Table.contains, get?]
  unfold verify
  cases hfirst : f.missing? slots with
  | some slot =>
    have hslot := (hmissing slot).1 hfirst
    simp only [← hmissing, hfirst, Option.some.injEq, exists_eq_left', Except.error.injEq]
    constructor
    · intro heq
      exact .inl heq.symm
    · rintro (heq | ⟨hfilled, _⟩)
      · exact heq.symm
      · exact absurd hslot.1.2 (hfilled slot hslot.1.1)
  | none =>
    have hfilled : ∀ s ∈ slots.keys, f.get? s ≠ none := by
      intro s hs hnone
      have hdeclared := Option.isSome_iff_ne_none.1 (Table.mem_keys.1 hs)
      exact missing?_eq_none_iff.1 hfirst s hdeclared hnone
    rw [and_iff_right hfilled, ← findSome?_misfit]
    simp only [← hmissing, hfirst, reduceCtorEq, false_and, exists_false, false_or]
    cases f.bySlot.entries.findSome? fun a => misfit? slots a.1 a.2 with
    | some e' => simp
    | none => simp

end Fills

/-- The template declares the slot, and neither a fact nor a preset fills it. -/
def Unfilled (r : Resolved) (s : String) : Prop :=
  s ∈ r.slots.keys ∧ s ∉ factKinds.map (·.1) ∧ s ∉ r.presets.keys

/-- A fact fills the slot, and the template does not declare it so. -/
def Misfit (r : Resolved) (s : String) : Prop :=
  ∃ kind, (s, kind) ∈ factKinds ∧ r.slots.get? s ≠ some kind

theorem get?_build_eq_none_iff {ctx : Context} {r : Resolved} {h : Handler} {f : Fills}
    (hf : Fills.build ctx r h = .ok f) {s : String} :
    f.get? s = none ↔ s ∉ factKinds.map (·.1) ∧ s ∉ r.presets.keys := by
  rw [← not_or, ← List.mem_append, ← fills_names ctx r h, Option.eq_none_iff_forall_ne_some,
    List.mem_map]
  simp only [ne_eq, get?_build hf]
  constructor
  · rintro hnone ⟨⟨_, fill⟩, hmem, rfl⟩
    exact hnone fill hmem
  · intro hnone fill hmem
    exact hnone ⟨_, hmem, rfl⟩

/-- The fills that do not fit are facts, since presets are declared as the scalars they are. -/
theorem misfit_build_iff {ctx : Context} {r : Resolved} {h : Handler} {f : Fills}
    (hr : ∀ s ∈ r.presets.keys, r.slots.get? s = some .scalar) (hf : Fills.build ctx r h = .ok f)
    {s : String} {kind : SlotKind} :
    (∃ fill, f.get? s = some fill ∧ fill.kind = kind ∧ r.slots.get? s ≠ some kind) ↔
      (s, kind) ∈ factKinds ∧ r.slots.get? s ≠ some kind := by
  simp only [get?_build hf, List.mem_append]
  rw [← facts_kinds ctx r h, List.mem_map]
  constructor
  · rintro ⟨fill, hfact | hpreset, rfl, hne⟩
    · exact ⟨⟨_, hfact, rfl⟩, hne⟩
    · obtain ⟨e, he, heq⟩ := List.mem_map.1 hpreset
      cases heq
      exact absurd (hr _ (List.mem_map_of_mem he)) hne
  · rintro ⟨⟨⟨_, fill⟩, hfact, heq⟩, hne⟩
    cases heq
    exact ⟨fill, .inl hfact, rfl, hne⟩

theorem misfilled_build_iff {ctx : Context} {r : Resolved} {h : Handler} {f : Fills}
    (hr : ∀ s ∈ r.presets.keys, r.slots.get? s = some .scalar) (hf : Fills.build ctx r h = .ok f)
    {s : String} : f.Misfilled r.slots s ↔ Misfit r s := by
  constructor
  · rintro ⟨fill, hget, hne⟩
    exact ⟨fill.kind, (misfit_build_iff hr hf).1 ⟨fill, hget, rfl, hne⟩⟩
  · rintro ⟨kind, hkind⟩
    obtain ⟨fill, hget, rfl, hne⟩ := (misfit_build_iff hr hf).2 hkind
    exact ⟨fill, hget, hne⟩

/-- A fact that does not fit has the kind of its fill. -/
theorem kind_of_misfit {ctx : Context} {r : Resolved} {h : Handler} {f : Fills}
    (hr : ∀ s ∈ r.presets.keys, r.slots.get? s = some .scalar) (hf : Fills.build ctx r h = .ok f)
    {s : String} {fill : Fill} {kind : SlotKind} (hs : Misfit r s) (hget : f.get? s = some fill) :
    (s, kind) ∈ factKinds ↔ kind = fill.kind := by
  obtain ⟨fill', hget', hne⟩ := (misfilled_build_iff hr hf).2 hs
  obtain rfl : fill' = fill := Option.some.inj (hget'.symm.trans hget)
  have hfact := ((misfit_build_iff hr hf).1 ⟨fill', hget, rfl, hne⟩).1
  constructor
  · intro hkind
    have hpair := (Table.get?_ofList_eq_some_iff factKinds_names_nodup).2 hkind
    rw [(Table.get?_ofList_eq_some_iff factKinds_names_nodup).2 hfact] at hpair
    exact (Option.some.inj hpair).symm
  · rintro rfl
    exact hfact

theorem verify_build_eq_error_iff {ctx : Context} {r : Resolved} {h : Handler} {f : Fills}
    (hr : ∀ s ∈ r.presets.keys, r.slots.get? s = some .scalar) (hf : Fills.build ctx r h = .ok f)
    {e : Error} :
    f.verify r.slots = .error e ↔
      (∃ slot, Smallest (Unfilled r) slot ∧ e = .unfilled slot) ∨
        (∀ s, ¬Unfilled r s) ∧ ∃ slot kind, Smallest (Misfit r) slot ∧ (slot, kind) ∈ factKinds ∧
          ((r.slots.get? slot = none ∧ e = .undeclared slot) ∨
            ∃ declared, r.slots.get? slot = some declared ∧ e = .kindMismatch slot declared kind) := by
  have hunfilled : ∀ s, s ∈ r.slots.keys ∧ f.get? s = none ↔ Unfilled r s := fun s => by
    rw [get?_build_eq_none_iff hf, Unfilled]
  rw [Fills.verify_eq_error_iff]
  simp only [Smallest.congr hunfilled, Smallest.congr fun _ => misfilled_build_iff hr hf]
  refine or_congr Iff.rfl (and_congr ?_ ?_)
  · exact forall_congr' fun s => by rw [← hunfilled, not_and]
  · constructor
    · rintro ⟨slot, fill, hslot, hget, herror⟩
      exact ⟨slot, fill.kind, hslot, (kind_of_misfit hr hf hslot.1 hget).2 rfl, herror⟩
    · rintro ⟨slot, kind, hslot, hkind, herror⟩
      obtain ⟨fill, hget, _⟩ := (misfilled_build_iff hr hf).2 hslot.1
      obtain rfl := (kind_of_misfit hr hf hslot.1 hget).1 hkind
      exact ⟨slot, fill, hslot, hget, herror⟩

theorem verify_build_ok_iff {ctx : Context} {r : Resolved} {h : Handler} {f : Fills}
    (hr : ∀ s ∈ r.presets.keys, r.slots.get? s = some .scalar) (hf : Fills.build ctx r h = .ok f) :
    f.verify r.slots = .ok () ↔ (∀ s, ¬Unfilled r s) ∧ ∀ s, ¬Misfit r s := by
  constructor
  · intro hverify
    have hfits := Fills.verify_eq_ok_iff.1 hverify
    constructor
    · rintro s ⟨hslot, hfree⟩
      have hdeclared := Option.isSome_iff_ne_none.1 (Table.mem_keys.1 hslot)
      rw [← hfits s, (get?_build_eq_none_iff hf).2 hfree] at hdeclared
      exact hdeclared rfl
    · rintro s ⟨kind, hs⟩
      obtain ⟨fill, hget, rfl, hne⟩ := (misfit_build_iff hr hf).2 hs
      rw [← hfits s, hget] at hne
      exact hne rfl
  · rintro ⟨hcomplete, hfits⟩
    cases hverify : f.verify r.slots with
    | ok _ => rfl
    | error e =>
      rcases (verify_build_eq_error_iff hr hf).1 hverify with ⟨s, hs, _⟩ | ⟨_, s, _, hs, _⟩
      · exact absurd hs.1 (hcomplete s)
      · exact absurd hs.1 (hfits s)

end Covenant.Artifact
