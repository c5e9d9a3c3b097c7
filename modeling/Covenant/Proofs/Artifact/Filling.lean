import Mathlib.Data.List.Nodup
import Covenant.Artifact.Facts
import Covenant.Proofs.Outcome
import Covenant.Table.Lookup

/-! Filling the slots of a template. A row of fills can be made exactly when no slot is
in it twice, and it fits a template exactly when it gives every slot the kind of fill
that the template declares. Which slots the facts of a contract fill, and how, is the
same for every contract. -/
namespace Covenant.Artifact

open Template (SlotKind Resolved)
open Law (Context Handler)

namespace Fills

/-! ### Filling -/

theorem insert_eq_ok_iff {f f' : Fills} {slot : String} {fill : Fill} :
    f.insert slot fill = .ok f' ↔ f.get? slot = none ∧ f' = ⟨f.bySlot.insert slot fill⟩ := by
  unfold insert
  rw [get?]
  cases hget : f.bySlot.get? slot with
  | none => simp [Table.contains, hget, eq_comm]
  | some _ => simp [Table.contains, hget]

theorem get?_insert_eq_none_iff {f : Fills} {slot slot' : String} {fill : Fill} :
    get? ⟨f.bySlot.insert slot fill⟩ slot' = none ↔ slot ≠ slot' ∧ f.get? slot' = none := by
  rw [get?, Table.get?_insert]
  by_cases heq : slot = slot'
  · simp [heq]
  · simp [heq, get?]

theorem insertAll_eq_ok_iff {f f' : Fills} {fills : List (String × Fill)} :
    f.insertAll fills = .ok f' ↔
      (fills.map (·.1)).Nodup ∧ (∀ e ∈ fills, f.get? e.1 = none) ∧
        f' = ⟨fills.foldl (fun t e => t.insert e.1 e.2) f.bySlot⟩ := by
  induction fills generalizing f with
  | nil => simp [insertAll, eq_comm]
  | cons e rest ih =>
    obtain ⟨slot, fill⟩ := e
    rw [insertAll]
    cases hinsert : f.insert slot fill with
    | error _ =>
      have hfilled : f.get? slot ≠ none := by
        intro hnone
        rw [insert_eq_ok_iff.2 ⟨hnone, rfl⟩] at hinsert
        cases hinsert
      simp only [reduceCtorEq, false_iff]
      rintro ⟨_, hfree, _⟩
      exact hfilled (hfree (slot, fill) List.mem_cons_self)
    | ok g =>
      obtain ⟨hfree, rfl⟩ := insert_eq_ok_iff.1 hinsert
      simp only [ih, get?_insert_eq_none_iff, List.map_cons, List.nodup_cons, List.forall_mem_cons,
        List.foldl_cons]
      constructor
      · rintro ⟨hnodup, hrest, rfl⟩
        refine ⟨⟨?_, hnodup⟩, ⟨hfree, fun e he => (hrest e he).2⟩, rfl⟩
        intro hmem
        obtain ⟨e, he, heq⟩ := List.mem_map.1 hmem
        exact (hrest e he).1 heq.symm
      · rintro ⟨⟨hnew, hnodup⟩, ⟨_, hrest⟩, rfl⟩
        refine ⟨hnodup, fun e he => ⟨?_, hrest e he⟩, rfl⟩
        rintro rfl
        exact hnew (List.mem_map_of_mem he)

/-! ### Fitting -/

/-- The fills give every slot the kind of fill that it is declared with, and no other
slot is filled. -/
def Fits (f : Fills) (slots : Table SlotKind) : Prop :=
  ∀ slot, (f.get? slot).map Fill.kind = slots.get? slot

theorem misfit?_eq_none_iff {slots : Table SlotKind} {slot : String} {fill : Fill} :
    misfit? slots slot fill = none ↔ slots.get? slot = some fill.kind := by
  unfold misfit?
  split
  · next h => simp [h]
  · next kind h => simp [h]

theorem missing?_eq_none_iff {f : Fills} {slots : Table SlotKind} :
    f.missing? slots = none ↔ ∀ slot, slots.get? slot ≠ none → f.get? slot ≠ none := by
  have hcontains : ∀ {α : Type} (t : Table α) (slot : String),
      t.contains slot = true ↔ t.get? slot ≠ none := by
    intro α t slot
    rw [Table.contains, Option.isSome_iff_ne_none]
  simp only [missing?, List.find?_eq_none, Table.mem_keys, Bool.not_eq_true', Bool.not_eq_false,
    hcontains, get?]

theorem verify_eq_ok_iff {f : Fills} {slots : Table SlotKind} :
    f.verify slots = .ok () ↔ f.Fits slots := by
  have hentries : f.bySlot.entries.findSome? (fun e => misfit? slots e.1 e.2) = none ↔
      ∀ slot fill, f.get? slot = some fill → slots.get? slot = some fill.kind := by
    rw [List.findSome?_eq_none_iff]
    constructor
    · intro h slot fill hget
      exact misfit?_eq_none_iff.1 (h (slot, fill) (Table.mem_entries.2 hget))
    · intro h e he
      exact misfit?_eq_none_iff.2 (h e.1 e.2 (Table.mem_entries.1 he))
  have hverify : f.verify slots = .ok () ↔ f.missing? slots = none ∧
      f.bySlot.entries.findSome? (fun e => misfit? slots e.1 e.2) = none := by
    unfold verify
    cases f.missing? slots with
    | some _ => simp
    | none =>
      cases f.bySlot.entries.findSome? (fun e => misfit? slots e.1 e.2) with
      | some _ => simp
      | none => simp
  rw [hverify, missing?_eq_none_iff, hentries]
  constructor
  · rintro ⟨hdeclared, hfilled⟩ slot
    cases hget : f.get? slot with
    | some fill => rw [hfilled slot fill hget, Option.map_some]
    | none =>
      by_contra hne
      exact hdeclared slot (Ne.symm hne) hget
  · intro h
    refine ⟨fun slot hslot hnone => ?_, fun slot fill hget => ?_⟩
    · rw [← h slot, hnone] at hslot
      exact hslot rfl
    · rw [← h slot, hget, Option.map_some]

end Fills

/-! ### The facts -/

/-- The slots that the facts of a contract fill, each with the kind of its fill. -/
def factKinds : List (String × SlotKind) :=
  [("contract_name", .scalar), ("contract_type", .scalar), ("jurisdiction", .scalar),
    ("definition_version", .scalar), ("description", .scalar), ("jurisdiction_name", .scalar),
    ("template_version", .scalar), ("payer_name", .scalar), ("payer_address", .scalar),
    ("payee_name", .scalar), ("payee_address", .scalar), ("legal_requirements", .scalar),
    ("legal_requirement_count", .scalar), ("mandatory_clauses", .scalar),
    ("time_limit_constants", .block), ("constraint_constants", .block),
    ("condition_handlers", .block), ("requirement_registration", .block),
    ("party_registration", .block), ("test_cases", .block), ("jurisdiction_state", .block),
    ("jurisdiction_initialization", .block), ("compliance_verification", .block),
    ("dispute_handling", .block), ("jurisdiction_functions", .block)]

theorem facts_kinds (ctx : Context) (r : Resolved) (h : Handler) :
    (facts ctx r h).map (fun e => (e.1, e.2.kind)) = factKinds := rfl

theorem facts_names (ctx : Context) (r : Resolved) (h : Handler) :
    (facts ctx r h).map (·.1) = factKinds.map (·.1) := rfl

theorem factKinds_names_nodup : (factKinds.map (·.1)).Nodup := by decide +kernel

/-! ### The fills of a composition -/

/-- The slots filled for a template, each with the kind of its fill. -/
def fillKinds (r : Resolved) : List (String × SlotKind) :=
  factKinds ++ r.presets.keys.map fun slot => (slot, .scalar)

theorem fills_kinds (ctx : Context) (r : Resolved) (h : Handler) :
    (facts ctx r h ++ presetFills r).map (fun e => (e.1, e.2.kind)) = fillKinds r := by
  rw [List.map_append, facts_kinds, fillKinds, presetFills, Table.keys, List.map_map, List.map_map]
  rfl

theorem fills_names (ctx : Context) (r : Resolved) (h : Handler) :
    (facts ctx r h ++ presetFills r).map (·.1) = factKinds.map (·.1) ++ r.presets.keys := by
  rw [List.map_append, facts_names, presetFills, Table.keys, List.map_map]
  rfl

theorem fillKinds_names (r : Resolved) :
    (fillKinds r).map (·.1) = factKinds.map (·.1) ++ r.presets.keys := by
  rw [fillKinds, List.map_append, List.map_map]
  exact congrArg _ (List.map_id _)

theorem fillKinds_names_nodup_iff (r : Resolved) : ((fillKinds r).map (·.1)).Nodup ↔
    ∀ slot ∈ r.presets.keys, slot ∉ factKinds.map (·.1) := by
  have hpresets : r.presets.keys.Nodup := r.presets.keys_sorted.imp String.ne_of_lt
  rw [fillKinds_names, List.nodup_append]
  constructor
  · rintro ⟨_, _, hdisjoint⟩ slot hslot hfact
    exact hdisjoint slot hfact slot hslot rfl
  · rintro hdisjoint
    refine ⟨factKinds_names_nodup, hpresets, ?_⟩
    rintro a ha b hb rfl
    exact hdisjoint a hb ha

theorem fills_names_nodup_iff (ctx : Context) (r : Resolved) (h : Handler) :
    ((facts ctx r h ++ presetFills r).map (·.1)).Nodup ↔
      ∀ slot ∈ r.presets.keys, slot ∉ factKinds.map (·.1) := by
  rw [fills_names, ← fillKinds_names, fillKinds_names_nodup_iff]

/-- The fills for a template can be made exactly when it presets no slot that a fact fills. -/
theorem build_eq_ok_iff {ctx : Context} {r : Resolved} {h : Handler} {f : Fills} :
    Fills.build ctx r h = .ok f ↔ (∀ slot ∈ r.presets.keys, slot ∉ factKinds.map (·.1)) ∧
      f = ⟨Table.ofList (facts ctx r h ++ presetFills r)⟩ := by
  rw [Fills.build, Fills.insertAll_eq_ok_iff, fills_names_nodup_iff]
  constructor
  · rintro ⟨hdisjoint, _, rfl⟩
    exact ⟨hdisjoint, rfl⟩
  · rintro ⟨hdisjoint, rfl⟩
    exact ⟨hdisjoint, fun _ _ => rfl, rfl⟩

theorem exists_build (ctx : Context) {r : Resolved} (h : Handler)
    (hr : ∀ slot ∈ r.presets.keys, slot ∉ factKinds.map (·.1)) :
    ∃ f, Fills.build ctx r h = .ok f :=
  ⟨_, build_eq_ok_iff.2 ⟨hr, rfl⟩⟩

theorem get?_ofList {es : List (String × Fill)} (h : (es.map (·.1)).Nodup) {slot : String}
    {fill : Fill} : Fills.get? ⟨Table.ofList es⟩ slot = some fill ↔ (slot, fill) ∈ es :=
  Table.get?_ofList_eq_some_iff h

/-- Every fill is a fact or a preset, and all of them are there. -/
theorem get?_build {ctx : Context} {r : Resolved} {h : Handler} {f : Fills}
    (hf : Fills.build ctx r h = .ok f) {slot : String} {fill : Fill} :
    f.get? slot = some fill ↔ (slot, fill) ∈ facts ctx r h ++ presetFills r := by
  obtain ⟨hdisjoint, hf⟩ := build_eq_ok_iff.1 hf
  have hnodup := (fills_names_nodup_iff ctx r h).2 hdisjoint
  rw [hf, get?_ofList hnodup]

theorem kinds_ofList (es : List (String × Fill)) (slot : String) :
    (Fills.get? ⟨Table.ofList es⟩ slot).map Fill.kind =
      (Table.ofList (es.map fun e => (e.1, e.2.kind))).get? slot := by
  rw [Fills.get?, Table.get?_ofList, Table.get?_ofList, ← List.map_reverse, Table.find?_map]

theorem kinds_build {ctx : Context} {r : Resolved} {h : Handler} {f : Fills}
    (hf : Fills.build ctx r h = .ok f) (slot : String) :
    (f.get? slot).map Fill.kind = (Table.ofList (fillKinds r)).get? slot := by
  rw [(build_eq_ok_iff.1 hf).2, kinds_ofList, fills_kinds]

/-- Whether the fills fit is a matter of the template alone. -/
theorem verify_build_eq_ok_iff {ctx : Context} {r : Resolved} {h : Handler} {f : Fills}
    (hf : Fills.build ctx r h = .ok f) :
    f.verify r.slots = .ok () ↔ r.slots = Table.ofList (fillKinds r) := by
  rw [Fills.verify_eq_ok_iff]
  constructor
  · intro hfits
    refine Table.ext_get? fun slot => ?_
    rw [← hfits slot, kinds_build hf]
  · intro hslots slot
    rw [hslots, kinds_build hf]

end Covenant.Artifact
