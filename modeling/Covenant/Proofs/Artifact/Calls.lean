import Mathlib.Data.Finset.Card
import Mathlib.Data.List.Induction
import Covenant.Proofs.Artifact.Misfits

/-! Fills that are made by calls. Calls change a map of fills in place, and some of them are
refused. However they come, the map has for each slot the fill of the first call for it: a later one
for the slot is refused and changes nothing. Checking the fills against a template compares them
with the slots it declares, both ways. -/
namespace Covenant.Artifact

open Template (Resolved)

/-! ### Calls -/

inductive Call where
  | insert (slot : String) (fill : Fill)
  | scalar (slot text : String)
  | block (slot : String) (statements : List String)
  deriving DecidableEq, Repr

namespace Call

def slot : Call → String
  | .insert slot _ | .scalar slot _ | .block slot _ => slot

def fill : Call → Fill
  | .insert _ fill => fill
  | .scalar _ text => .scalar text
  | .block _ statements => .block statements

/-- Makes a fill in the map at hand. What has been changed before a refusal stays so. -/
def perform (c : Call) : ExceptT Error (StateM Fills) Unit := do
  let f ← get
  if f.bySlot.contains c.slot then throw (.filledTwice c.slot)
  set (⟨f.bySlot.insert c.slot c.fill⟩ : Fills)

/-- What a call answers, and the map after it. -/
def run (c : Call) (f : Fills) : Except Error Unit × Fills := (ExceptT.run c.perform).run f

/-- The map after calls on a new one. -/
def after (calls : List Call) : Fills := calls.foldl (fun f c => (c.run f).2) Fills.empty

/-- A call fills as a map is filled, and a refused one leaves it. -/
theorem run_eq (c : Call) (f : Fills) :
    c.run f = match f.insert c.slot c.fill with
      | .ok f' => (.ok (), f')
      | .error e => (.error e, f) := by
  have hstate : c.run f = (if f.bySlot.contains c.slot
      then (throw (.filledTwice c.slot) : ExceptT Error (StateM Fills) Unit)
      else set (⟨f.bySlot.insert c.slot c.fill⟩ : Fills)).run.run f := rfl
  rw [hstate, Fills.insert]
  split
  · rfl
  · rfl

theorem run_of_free {c : Call} {f : Fills} (h : f.get? c.slot = none) :
    c.run f = (.ok (), ⟨f.bySlot.insert c.slot c.fill⟩) := by
  rw [run_eq, Fills.insert_eq_ok_iff.2 ⟨h, rfl⟩]

theorem run_of_filled {c : Call} {f : Fills} (h : f.get? c.slot ≠ none) :
    c.run f = (.error (.filledTwice c.slot), f) := by
  have hcontains : f.bySlot.contains c.slot = true := by
    rwa [Table.contains, Option.isSome_iff_ne_none]
  rw [run_eq, Fills.insert, if_pos hcontains]

/-! ### Calls in a row -/

theorem after_concat (calls : List Call) (c : Call) :
    after (calls ++ [c]) = (c.run (after calls)).2 := by
  rw [after, List.foldl_append]
  rfl

/-- The fill of a slot is that of the first call for it. By induction along the calls: the last one
fills its slot if none of the others did, and no other slot. -/
theorem get?_after (calls : List Call) (slot : String) :
    (after calls).get? slot = (calls.find? fun c => c.slot = slot).map Call.fill := by
  induction calls using List.reverseRecOn with
  | nil => rfl
  | append_singleton calls c ih =>
    rw [after_concat, List.find?_append]
    by_cases hfree : (after calls).get? c.slot = none
    · rw [run_of_free hfree, Fills.get?, Table.get?_insert, ← Fills.get?, ih]
      by_cases hslot : c.slot = slot
      · subst hslot
        rw [ih, Option.map_eq_none_iff] at hfree
        simp [hfree]
      · simp [hslot]
    · rw [run_of_filled hfree, ih]
      by_cases hslot : c.slot = slot
      · subst hslot
        rw [ih, Option.map_eq_none_iff] at hfree
        obtain ⟨d, hd⟩ := Option.ne_none_iff_exists'.1 hfree
        simp [hd]
      · simp [hslot]

/-- The slots that are filled are those of the calls. -/
theorem get?_after_eq_none_iff {calls : List Call} {slot : String} :
    (after calls).get? slot = none ↔ slot ∉ calls.map Call.slot := by
  rw [get?_after, Option.map_eq_none_iff, List.find?_eq_none]
  simp

theorem size_after (calls : List Call) :
    (after calls).size = (calls.map Call.slot).toFinset.card := by
  have hkeys : (after calls).bySlot.keys.toFinset = (calls.map Call.slot).toFinset := by
    ext slot
    rw [List.mem_toFinset, List.mem_toFinset, Table.mem_keys, Table.contains,
      Option.isSome_iff_ne_none, ← Fills.get?, ne_eq, get?_after_eq_none_iff, not_not]
  rw [← hkeys, List.toFinset_card_of_nodup (Table.keys_nodup _), Fills.size, Table.size, Table.keys,
    List.length_map]

end Call

/-- After any calls, refused ones included, a call is refused exactly when a call before was for its
slot, and then changes nothing; a slot has the fill of the first call for it, and there are as many
fills as slots in the calls. And any fills pass the check of a resolved template exactly when the
filled slots are the declared ones, each with its kind; else the smallest declared slot without a
fill is reported, or if there is none the smallest filled slot that is not declared or of another
kind. -/
theorem fills_of_calls :
    (∀ calls c, Call.run c (Call.after calls) =
      if c.slot ∈ calls.map Call.slot then (.error (.filledTwice c.slot), Call.after calls)
      else (.ok (), ⟨(Call.after calls).bySlot.insert c.slot c.fill⟩)) ∧
    (∀ calls slot, (Call.after calls).get? slot =
      (calls.find? fun c => c.slot = slot).map Call.fill) ∧
    (∀ calls, (Call.after calls).size = (calls.map Call.slot).toFinset.card) ∧
    ∀ (f : Fills) (r : Resolved),
      (f.verify r.slots = .ok () ↔ ∀ slot, (f.get? slot).map Fill.kind = r.slots.get? slot) ∧
      ∀ e, f.verify r.slots = .error e ↔
        (∃ slot, Smallest (fun s => s ∈ r.slots.keys ∧ f.get? s = none) slot ∧
          e = .unfilled slot) ∨
        (∀ s ∈ r.slots.keys, f.get? s ≠ none) ∧
          ∃ slot fill, Smallest (f.Misfilled r.slots) slot ∧ f.get? slot = some fill ∧
            ((r.slots.get? slot = none ∧ e = .undeclared slot) ∨
              ∃ declared, r.slots.get? slot = some declared ∧
                e = .kindMismatch slot declared fill.kind) := by
  refine ⟨fun calls c => ?_, Call.get?_after, Call.size_after,
    fun f r => ⟨Fills.verify_eq_ok_iff, fun e => Fills.verify_eq_error_iff⟩⟩
  split
  · next hmem =>
    exact Call.run_of_filled fun hnone => Call.get?_after_eq_none_iff.1 hnone hmem
  · next hmem => exact Call.run_of_free (Call.get?_after_eq_none_iff.2 hmem)

end Covenant.Artifact
