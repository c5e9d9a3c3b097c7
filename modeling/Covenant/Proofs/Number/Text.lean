import Covenant.Number.Layout
import Covenant.Proofs.Text.Clean

/-! The text of a number is harmless: digits, a point, a sign, or a word. -/
namespace Covenant.Double

open Text (Harmless harmless_toDigits)

theorem harmless_zeros (n : Nat) : Harmless (zeros n).toList := by
  rw [zeros, String.toList_ofList]
  intro c hc
  rw [(List.mem_replicate.1 hc).2]
  rfl

theorem harmless_writePositional (d : Decimal) : Harmless (plain.writePositional d).toList := by
  have hpart : ∀ cs, cs ⊆ Nat.toDigits 10 d.digits → Harmless (String.ofList cs).toList := by
    intro cs hcs
    rw [String.toList_ofList]
    exact fun c hc => harmless_toDigits _ c (hcs hc)
  unfold Layout.writePositional
  simp only
  split
  · rw [String.toList_append, String.toList_append]
    exact ((hpart _ (List.Subset.refl _)).append (harmless_zeros _)).append Text.harmless_nil
  · split
    · rw [String.toList_append, String.toList_append]
      refine ((hpart _ (List.take_subset _ _)).append ?_).append (hpart _ (List.drop_subset _ _))
      exact List.all_eq_true.1 rfl
    · rw [String.toList_append, String.toList_append]
      refine (Harmless.append ?_ (harmless_zeros _)).append (hpart _ (List.Subset.refl _))
      exact List.all_eq_true.1 rfl

theorem harmless_text (d : Double) : Harmless d.text.toList := by
  have hsign : ∀ negative : Bool, Harmless (if negative then "-" else "").toList := by
    intro negative
    cases negative with
    | true => exact List.all_eq_true.1 rfl
    | false => exact List.all_eq_true.1 rfl
  cases d with
  | nan => exact List.all_eq_true.1 rfl
  | infinite negative =>
    cases negative with
    | true => exact List.all_eq_true.1 rfl
    | false => exact List.all_eq_true.1 rfl
  | finite negative m q =>
    rw [text, Layout.write]
    simp only
    split
    · rw [String.toList_append]
      exact (hsign negative).append (List.all_eq_true.1 rfl)
    · have hpositional : ∀ top, plain.positional top = true := fun _ => rfl
      rw [String.toList_append, hpositional, if_pos rfl]
      exact (hsign negative).append (harmless_writePositional _)

end Covenant.Double
