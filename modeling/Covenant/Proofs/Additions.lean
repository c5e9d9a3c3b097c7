import Mathlib.Data.List.Pairwise
import Covenant.Proofs.Outcome

/-! Things added one after the other to a state that may refuse them. Three facts of a single
addition settle what a row of them does: when a state admits it, what it changes for the next
one, and that two additions which agree can change places. A row is then taken exactly when the
state admits each of its members and any two of them agree, and its order does not matter. Where
what is taken is only listed, a row is taken when its members are new and differ. -/
namespace Covenant

/-- What is known of a single addition. -/
structure Additions {ε α β : Type} (add : β → α → Except ε β) where
  Admits : β → α → Prop
  /-- The state with the addition, whether it admits it or not. -/
  put : β → α → β
  Agrees : α → α → Prop
  add_eq_ok_iff : ∀ b a b', add b a = .ok b' ↔ Admits b a ∧ b' = put b a
  admits_put : ∀ b a a', Admits b a → (Admits (put b a) a' ↔ Admits b a' ∧ Agrees a a')
  agrees_symm : ∀ a a', Agrees a a' → Agrees a' a
  put_comm : ∀ b a a', Agrees a a' → put (put b a) a' = put (put b a') a

namespace Additions

variable {ε α β : Type} {add : β → α → Except ε β} (h : Additions add) {as as' : List α} {b b' : β}

/-- A row is taken when the state admits each of its members and they agree with one another. -/
theorem foldlM_eq_ok_iff : as.foldlM add b = .ok b' ↔
    (∀ a ∈ as, h.Admits b a) ∧ as.Pairwise h.Agrees ∧ b' = as.foldl h.put b := by
  induction as generalizing b with
  | nil => simp [pure, Except.pure, eq_comm]
  | cons a as ih =>
    rw [List.foldlM_cons, Outcome.bind_eq_ok_iff, List.forall_mem_cons, List.pairwise_cons,
      List.foldl_cons]
    constructor
    · rintro ⟨_, hfirst, hrest⟩
      obtain ⟨hadmits, rfl⟩ := (h.add_eq_ok_iff _ _ _).1 hfirst
      obtain ⟨hall, hpairs, hlast⟩ := ih.1 hrest
      have hafter := fun a' ha' => (h.admits_put b a a' hadmits).1 (hall a' ha')
      exact ⟨⟨hadmits, fun a' ha' => (hafter a' ha').1⟩, ⟨fun a' ha' => (hafter a' ha').2, hpairs⟩,
        hlast⟩
    · rintro ⟨⟨hadmits, hall⟩, ⟨hagrees, hpairs⟩, hlast⟩
      refine ⟨_, (h.add_eq_ok_iff _ _ _).2 ⟨hadmits, rfl⟩, ih.2 ⟨fun a' ha' => ?_, hpairs, hlast⟩⟩
      exact (h.admits_put b a a' hadmits).2 ⟨hall a' ha', hagrees a' ha'⟩

theorem exists_foldlM_iff : (∃ b', as.foldlM add b = .ok b') ↔
    (∀ a ∈ as, h.Admits b a) ∧ as.Pairwise h.Agrees := by
  simp only [h.foldlM_eq_ok_iff, exists_and_left, exists_eq, and_true]

include h in
/-- Whatever order a row that is taken comes in, it is taken and leads to the same state. -/
theorem foldlM_perm (hperm : as.Perm as') (hok : as.foldlM add b = .ok b') :
    as'.foldlM add b = .ok b' := by
  obtain ⟨hall, hpairs, rfl⟩ := h.foldlM_eq_ok_iff.1 hok
  have hsymm : Std.Symm h.Agrees := ⟨h.agrees_symm⟩
  refine h.foldlM_eq_ok_iff.2 ⟨fun a ha => hall a (hperm.mem_iff.2 ha), ?_, ?_⟩
  · exact (hperm.pairwise_iff (h.agrees_symm _ _)).1 hpairs
  · refine hperm.foldl_eq' (fun a ha a' ha' s => ?_) b
    by_cases heq : a = a'
    · rw [heq]
    · exact h.put_comm s a a' (hpairs.forall ha ha' heq)

end Additions

/-- A row is new against a list when its first member is, and the others are new against the list
with that one. -/
theorem nodup_cons_new_iff {α : Type} {a : α} {as seen : List α} :
    ((a :: as).Nodup ∧ ∀ x ∈ a :: as, x ∉ seen) ↔
      a ∉ seen ∧ as.Nodup ∧ ∀ x ∈ as, x ∉ seen ++ [a] := by
  simp only [List.nodup_cons, List.forall_mem_cons, List.mem_append, List.mem_singleton, not_or]
  constructor
  · rintro ⟨⟨hnot, hnodup⟩, hnew, hrest⟩
    exact ⟨hnew, hnodup, fun x hx => ⟨hrest x hx, fun heq => hnot (heq ▸ hx)⟩⟩
  · rintro ⟨hnew, hnodup, hrest⟩
    exact ⟨⟨fun hmem => (hrest a hmem).2 rfl, hnodup⟩, hnew, fun x hx => (hrest x hx).1⟩

end Covenant
