import Mathlib.Algebra.Order.AbsoluteValue.Basic
import Covenant.Proofs.Number.Rounding

/-! Integers in double precision. An integer is compared with a number after it has been rounded.
The comparison is the one of exact values but for the integers that are rounded to the number
itself, and these are near to it. -/
namespace Covenant.Double

theorem scaled_true (m q : Nat) : scaled true m q = -((m * 2 ^ q : Nat) : Int) := rfl

theorem scaled_false (m q : Nat) : scaled false m q = ((m * 2 ^ q : Nat) : Int) := rfl

/-! ### The units of an integer -/

/-- The units that an integer is rounded to. -/
def integerUnits (n : Int) : Int :=
  let units : Nat := rounded (n.natAbs * 2 ^ place) 1
  if n < 0 then -units else units

theorem integerUnits_cases (n : Int) :
    (n < 0 ∧ n * 2 ^ place = -((n.natAbs * 2 ^ place : Nat) : Int) ∧
        integerUnits n = -((rounded (n.natAbs * 2 ^ place) 1 : Nat) : Int)) ∨
      (0 ≤ n ∧ n * 2 ^ place = ((n.natAbs * 2 ^ place : Nat) : Int) ∧
        integerUnits n = ((rounded (n.natAbs * 2 ^ place) 1 : Nat) : Int)) := by
  unfold integerUnits
  simp only
  rcases lt_or_ge n 0 with h | h
  · refine .inl ⟨h, ?_, if_pos h⟩
    push_cast
    rw [abs_of_neg h, neg_mul, neg_neg]
  · refine .inr ⟨h, ?_, if_neg (not_lt.2 h)⟩
    push_cast
    rw [abs_of_nonneg h]

/-- A number that is at most an integer is at most the rounded integer. -/
theorem le_integerUnits {negative : Bool} {m q : Nat} {n : Int} (hm : m < 2 ^ 53)
    (h : scaled negative m q ≤ n * 2 ^ place) : scaled negative m q ≤ integerUnits n := by
  rcases integerUnits_cases n with ⟨hn, hmul, heq⟩ | ⟨hn, hmul, heq⟩
  · have hpos : 0 < n.natAbs * 2 ^ place := Nat.mul_pos (Int.natAbs_pos.2 hn.ne) (by positivity)
    rw [heq]
    rw [hmul] at h
    generalize n.natAbs * 2 ^ place = N at h hpos ⊢
    cases negative with
    | true =>
      rw [scaled_true] at h ⊢
      have hle := rounded_le (n := N) (d := 1) (m := m) (q := q) Nat.one_pos hm (by omega)
      omega
    | false =>
      rw [scaled_false] at h
      omega
  · rw [heq]
    rw [hmul] at h
    generalize n.natAbs * 2 ^ place = N at h ⊢
    cases negative with
    | true =>
      rw [scaled_true]
      omega
    | false =>
      rw [scaled_false] at h ⊢
      have hle := le_rounded (n := N) (d := 1) (m := m) (q := q) Nat.one_pos hm (by omega)
      omega

theorem integerUnits_neg (n : Int) : integerUnits (-n) = -integerUnits n := by
  unfold integerUnits
  rw [Int.natAbs_neg]
  rcases lt_trichotomy n 0 with h | rfl | h
  · rw [if_pos h, if_neg (by omega), neg_neg]
  · have hzero : rounded 0 1 = 0 := rounded_eq (m := 0) (q := 0) Nat.one_pos (by decide) rfl
    simp [hzero]
  · rw [if_pos (by omega), if_neg (by omega)]

/-- A number that is at least an integer is at least the rounded integer. -/
theorem integerUnits_le {negative : Bool} {m q : Nat} {n : Int} (hm : m < 2 ^ 53)
    (h : n * 2 ^ place ≤ scaled negative m q) : integerUnits n ≤ scaled negative m q := by
  have hneg : scaled (!negative) m q = -scaled negative m q := by
    cases negative with
    | true => rw [Bool.not_true, scaled_true, scaled_false, neg_neg]
    | false => rw [Bool.not_false, scaled_true, scaled_false]
  have hle : scaled (!negative) m q ≤ integerUnits (-n) :=
    le_integerUnits hm (by rw [hneg, neg_mul]; exact neg_le_neg h)
  rw [hneg, integerUnits_neg] at hle
  exact neg_le_neg_iff.1 hle

/-- An integer is rounded by at most one part in `2 ^ 53`. -/
theorem integerUnits_near (n : Int) :
    2 ^ 53 * |n * 2 ^ place - integerUnits n| ≤ |n * 2 ^ place| := by
  obtain ⟨hlow, hhigh⟩ := rounded_near (n.natAbs * 2 ^ place)
  have hnear : ∀ N R : Nat, 2 ^ 53 * N ≤ 2 ^ 53 * R + N → 2 ^ 53 * R ≤ 2 ^ 53 * N + N →
      2 ^ 53 * |(N : Int) - R| ≤ N := by
    intro N R hlow hhigh
    rcases abs_cases ((N : Int) - R) with ⟨h, _⟩ | ⟨h, _⟩ <;> rw [h] <;> omega
  rcases integerUnits_cases n with ⟨_, hmul, heq⟩ | ⟨_, hmul, heq⟩
  · rw [heq, hmul, neg_sub_neg, abs_sub_comm, abs_neg, Nat.abs_cast]
    exact hnear _ _ hlow hhigh
  · rw [heq, hmul, Nat.abs_cast]
    exact hnear _ _ hlow hhigh

/-- Integers of up to 53 bits are not rounded. -/
theorem integerUnits_of_small {n : Int} (h : n.natAbs ≤ 2 ^ 53) : integerUnits n = n * 2 ^ place := by
  have hexact : rounded (n.natAbs * 2 ^ place) 1 = n.natAbs * 2 ^ place := by
    rcases Nat.lt_or_eq_of_le h with hlt | heq
    · exact rounded_eq Nat.one_pos hlt (Nat.mul_one _).symm
    · have hshift : n.natAbs * 2 ^ place = 2 ^ 52 * 2 ^ (place + 1) := by
        rw [heq]
        ring
      rw [hshift]
      exact rounded_eq Nat.one_pos (by decide) (Nat.mul_one _).symm
  rcases integerUnits_cases n with ⟨_, hmul, heq⟩ | ⟨_, hmul, heq⟩
  · rw [heq, hmul, hexact]
  · rw [heq, hmul, hexact]

/-! ### The number nearest to an integer -/

/-- What is too large for a finite number. -/
def overflow : Int := 2 ^ 53 * 2 ^ maxExponent

theorem abs_scaled_lt {negative : Bool} {m q : Nat} (h : (finite negative m q).Precise) :
    |scaled negative m q| < overflow := by
  obtain ⟨hm, hq⟩ := h
  have hlt : m * 2 ^ q < 2 ^ 53 * 2 ^ maxExponent :=
    lt_of_lt_of_le (Nat.mul_lt_mul_of_pos_right hm (by positivity))
      (Nat.mul_le_mul_left _ (Nat.pow_le_pow_right (by omega) hq))
  rw [Int.abs_eq_natAbs, natAbs_scaled, overflow]
  exact_mod_cast hlt

/-- An integer becomes the finite number of its units, or infinite when there is none. -/
theorem ofInt_cases (n : Int) :
    (∃ negative m q, ofInt n = .finite negative m q ∧ (finite negative m q).Precise ∧
        scaled negative m q = integerUnits n) ∨
      (ofInt n = .infinite true ∧ integerUnits n ≤ -overflow) ∨
      (ofInt n = .infinite false ∧ overflow ≤ integerUnits n) := by
  unfold ofInt
  rcases integerUnits_cases n with ⟨hn, _, hinteger⟩ | ⟨hn, _, hinteger⟩
  · rw [decide_eq_true hn, hinteger]
    rcases ofRatio_cases true n.natAbs Nat.one_pos with ⟨m, q, heq, hm, hq, hunits⟩ | ⟨heq, hover⟩
    · exact .inl ⟨true, m, q, heq, ⟨hm, hq⟩, by rw [scaled_true, hunits]⟩
    · refine .inr (.inl ⟨heq, neg_le_neg ?_⟩)
      rw [overflow]
      exact_mod_cast hover
  · rw [decide_eq_false (not_lt.2 hn), hinteger]
    rcases ofRatio_cases false n.natAbs Nat.one_pos with ⟨m, q, heq, hm, hq, hunits⟩ | ⟨heq, hover⟩
    · exact .inl ⟨false, m, q, heq, ⟨hm, hq⟩, by rw [scaled_false, hunits]⟩
    · refine .inr (.inr ⟨heq, ?_⟩)
      rw [overflow]
      exact_mod_cast hover

section Compared

variable {negative : Bool} {m q : Nat} (hx : (finite negative m q).Precise) {n : Int}

include hx

theorem le_ofInt_iff :
    (finite negative m q).le (ofInt n) = true ↔ scaled negative m q ≤ integerUnits n := by
  have hlt := abs_lt.1 (abs_scaled_lt hx)
  rcases ofInt_cases n with ⟨_, _, _, heq, _, hunits⟩ | ⟨heq, hover⟩ | ⟨heq, hover⟩ <;> rw [heq]
  · rw [le_finite_iff, hunits]
  · simp only [le, lt, Bool.not_true, Bool.false_eq_true, false_iff]
    omega
  · simp only [le, lt, Bool.not_false, true_iff]
    omega

theorem ofInt_le_iff :
    (ofInt n).le (finite negative m q) = true ↔ integerUnits n ≤ scaled negative m q := by
  have hlt := abs_lt.1 (abs_scaled_lt hx)
  rcases ofInt_cases n with ⟨_, _, _, heq, _, hunits⟩ | ⟨heq, hover⟩ | ⟨heq, hover⟩ <;> rw [heq]
  · rw [le_finite_iff, hunits]
  · simp only [le, lt, Bool.not_not, true_iff]
    omega
  · simp only [le, lt, Bool.not_not, Bool.false_eq_true, false_iff]
    omega

/-- An integer is rounded to a number exactly when its units are those of the number. -/
theorem ofInt_value?_eq_iff :
    (ofInt n).value? = some (scaled negative m q / (2 : ℚ) ^ place) ↔
      integerUnits n = scaled negative m q := by
  have hlt := abs_lt.1 (abs_scaled_lt hx)
  rcases ofInt_cases n with ⟨_, _, _, heq, _, hunits⟩ | ⟨heq, hover⟩ | ⟨heq, hover⟩ <;> rw [heq]
  · rw [value?, Option.some_inj, hunits, div_left_inj' (by positivity), Int.cast_inj]
  · simp only [value?, reduceCtorEq, false_iff]
    omega
  · simp only [value?, reduceCtorEq, false_iff]
    omega

end Compared

/-! ### Exact comparisons -/

variable {x : Double} {v : ℚ} {n : Int}

/-- An integer passes for at most a number when it is, or when it is rounded to the number. -/
theorem ofInt_le_iff_of_value? (hx : x.Precise) (hv : x.value? = some v) :
    (ofInt n).le x = true ↔ n ≤ v ∨ (ofInt n).value? = some v := by
  obtain ⟨negative, m, q, rfl, rfl⟩ := value?_eq_some_iff.1 hv
  rw [ofInt_le_iff hx, ofInt_value?_eq_iff hx, le_value_iff]
  constructor
  · intro h
    rcases le_total (n * 2 ^ place) (scaled negative m q) with hle | hle
    · exact .inl hle
    · exact .inr (le_antisymm h (le_integerUnits hx.1 hle))
  · rintro (h | h)
    · exact integerUnits_le hx.1 h
    · exact h.le

/-- An integer passes for at least a number when it is, or when it is rounded to the number. -/
theorem le_ofInt_iff_of_value? (hx : x.Precise) (hv : x.value? = some v) :
    x.le (ofInt n) = true ↔ v ≤ n ∨ (ofInt n).value? = some v := by
  obtain ⟨negative, m, q, rfl, rfl⟩ := value?_eq_some_iff.1 hv
  rw [le_ofInt_iff hx, ofInt_value?_eq_iff hx, value_le_iff]
  constructor
  · intro h
    rcases le_total (scaled negative m q) (n * 2 ^ place) with hle | hle
    · exact .inl hle
    · exact .inr (le_antisymm (integerUnits_le hx.1 hle) h)
  · rintro (h | h)
    · exact le_integerUnits hx.1 h
    · exact h.ge

theorem ofInt_value? {n : Int} (hv : (ofInt n).value? = some v) :
    v = integerUnits n / (2 : ℚ) ^ place := by
  rcases ofInt_cases n with ⟨_, _, _, heq, _, hunits⟩ | ⟨heq, _⟩ | ⟨heq, _⟩ <;> rw [heq] at hv
  · rw [← Option.some.inj hv, hunits]
  · cases hv
  · cases hv

/-- An integer of up to 53 bits is not rounded. -/
theorem ofInt_value?_of_small (h : n.natAbs ≤ 2 ^ 53) : (ofInt n).value? = some (n : ℚ) := by
  have hlt : |integerUnits n| < overflow := by
    have hrange : (2 : Int) ^ place < 2 ^ maxExponent := pow_lt_pow_right₀ (by decide) (by decide)
    rw [integerUnits_of_small h, abs_mul, abs_of_pos (show (0 : Int) < 2 ^ place by positivity),
      overflow]
    exact mul_lt_mul' (by rw [Int.abs_eq_natAbs]; exact_mod_cast h) hrange (by positivity) (by positivity)
  have hfinite : ∃ v, (ofInt n).value? = some v := by
    rcases ofInt_cases n with ⟨_, _, _, heq, _⟩ | ⟨_, hover⟩ | ⟨_, hover⟩
    · exact ⟨_, by rw [heq]; rfl⟩
    · exact absurd (abs_lt.1 hlt).1 (not_lt.2 hover)
    · exact absurd (abs_lt.1 hlt).2 (not_lt.2 hover)
  obtain ⟨v, hv⟩ := hfinite
  have hunits := ofInt_value? hv
  rw [integerUnits_of_small h, Int.cast_mul, Int.cast_pow, Int.cast_ofNat,
    mul_div_cancel_right₀ _ (by positivity)] at hunits
  rw [hv, hunits]

/-- A number that an integer is rounded to is near to it. -/
theorem near_of_ofInt_value? (hv : (ofInt n).value? = some v) :
    2 ^ 53 * |(n : ℚ) - v| ≤ |(n : ℚ)| := by
  have hpos : (0 : ℚ) < 2 ^ place := by positivity
  have hunits : 2 ^ 53 * |(n : ℚ) * 2 ^ place - integerUnits n| ≤ |(n : ℚ) * 2 ^ place| := by
    exact_mod_cast integerUnits_near n
  have hsub : (n : ℚ) - v = (n * 2 ^ place - integerUnits n) / 2 ^ place := by
    rw [ofInt_value? hv, sub_div, mul_div_cancel_right₀ _ hpos.ne']
  rw [abs_mul, abs_of_pos hpos] at hunits
  rw [hsub, abs_div, abs_of_pos hpos, ← mul_div_assoc, div_le_iff₀ hpos]
  exact hunits

end Covenant.Double
