import Mathlib.Algebra.Order.Field.Rat
import Mathlib.Tactic.Positivity
import Mathlib.Tactic.Ring
import Covenant.Number.Double

/-! The exact values of double precision numbers. A finite number is an integer number of units of
`2 ^ -1074`, and two of them compare as their values do. -/
namespace Covenant.Double

/-- The exact value of a finite number. -/
def value? : Double → Option ℚ
  | .finite negative m q => some (scaled negative m q / 2 ^ place)
  | _ => none

/-- A number of double precision: its mantissa has 53 bits and its exponent is in range. -/
def Precise : Double → Prop
  | .finite _ m q => m < 2 ^ 53 ∧ q ≤ maxExponent
  | _ => True

theorem natAbs_scaled (negative : Bool) (m q : Nat) : (scaled negative m q).natAbs = m * 2 ^ q := by
  cases negative <;> simp [scaled, Int.natAbs_mul, Int.natAbs_pow]

theorem le_finite_iff {a b : Bool} {m n q p : Nat} :
    (finite a m q).le (finite b n p) = true ↔ scaled a m q ≤ scaled b n p := by
  simp [le, lt]

theorem value?_eq_some_iff {x : Double} {v : ℚ} :
    x.value? = some v ↔
      ∃ negative m q, x = .finite negative m q ∧ scaled negative m q / (2 : ℚ) ^ place = v := by
  cases x <;> simp [value?]

theorem exists_value {x : Double} (h : x.isFinite = true) : ∃ v, x.value? = some v := by
  cases x with
  | finite negative m q => exact ⟨_, rfl⟩
  | infinite _ => cases h
  | nan => cases h

/-- The units of a number that is at most an integer. -/
theorem value_le_iff {negative : Bool} {m q : Nat} {n : Int} :
    (scaled negative m q / (2 : ℚ) ^ place ≤ n) ↔ scaled negative m q ≤ n * 2 ^ place := by
  rw [div_le_iff₀ (by positivity)]
  exact_mod_cast Iff.rfl

theorem le_value_iff {negative : Bool} {m q : Nat} {n : Int} :
    (n ≤ scaled negative m q / (2 : ℚ) ^ place) ↔ n * 2 ^ place ≤ scaled negative m q := by
  rw [le_div_iff₀ (by positivity)]
  exact_mod_cast Iff.rfl

/-- The integers among the exact values. -/
theorem value?_eq_natCast_iff {negative : Bool} {m q k : Nat} :
    (finite negative m q).value? = some (k : ℚ) ↔ scaled negative m q = (k * 2 ^ place : Nat) := by
  rw [value?, Option.some_inj, div_eq_iff (by positivity)]
  exact_mod_cast Iff.rfl

/-- A number is converted to a natural number exactly when that is its value. -/
theorem toNat?_eq_some_iff {x : Double} {k : Nat} :
    x.toNat? = some k ↔ x.value? = some (k : ℚ) := by
  cases x with
  | finite negative m q =>
    have hpow : ∀ b, 2 ^ b = Nat.pow 2 b := fun _ => rfl
    have hunit : 0 < 2 ^ place := Nat.two_pow_pos place
    rw [hpow] at hunit
    rw [value?_eq_natCast_iff, hpow, toNat?, scaled]
    generalize m * Nat.pow 2 q = v
    generalize Nat.pow 2 place = unit at hunit ⊢
    simp only [Option.ite_none_right_eq_some, Bool.and_eq_true, beq_iff_eq, Bool.or_eq_true,
      Bool.not_eq_true', Option.some_inj]
    constructor
    · rintro ⟨⟨hmod, hsign⟩, rfl⟩
      have hv : v / unit * unit = v := Nat.div_mul_cancel (Nat.dvd_of_mod_eq_zero hmod)
      rw [hv]
      rcases hsign with rfl | rfl
      · simp
      · rfl
    · intro h
      have hcases : v = k * unit ∧ (v = 0 ∨ negative = false) := by
        cases negative with
        | true =>
          rw [if_pos rfl] at h
          omega
        | false => exact ⟨Int.ofNat.inj h, .inr rfl⟩
      obtain ⟨rfl, hsign⟩ := hcases
      exact ⟨⟨Nat.mul_mod_left k unit, hsign⟩, Nat.mul_div_cancel k hunit⟩
  | infinite _ => exact iff_of_false nofun nofun
  | nan => exact iff_of_false nofun nofun

end Covenant.Double
