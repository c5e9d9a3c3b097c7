import Mathlib.Tactic.Linarith
import Covenant.Proofs.Number.Value

/-! Rounding to double precision. A ratio is rounded to a number of units on the grid of its binade.
The grid holds every number of double precision next to the ratio, so that rounding never passes
one of them: a ratio that is at most a number is rounded to at most that number. -/
namespace Covenant.Double

/-! ### Rounded quotients -/

theorem roundDiv_cases (n d : Nat) :
    (roundDiv n d = n / d ∧ 2 * (n % d) ≤ d) ∨ (roundDiv n d = n / d + 1 ∧ d ≤ 2 * (n % d)) := by
  unfold roundDiv
  simp only
  split
  · next h =>
    simp only [Bool.or_eq_true, decide_eq_true_eq, Bool.and_eq_true, beq_iff_eq] at h
    exact .inl ⟨rfl, by omega⟩
  · next h =>
    simp only [Bool.or_eq_true, decide_eq_true_eq, Bool.and_eq_true, beq_iff_eq, not_or] at h
    exact .inr ⟨rfl, by omega⟩

theorem le_roundDiv {n d k : Nat} (hd : 0 < d) (h : k * d ≤ n) : k ≤ roundDiv n d := by
  have hk : k ≤ n / d := (Nat.le_div_iff_mul_le hd).2 h
  rcases roundDiv_cases n d with ⟨heq, _⟩ | ⟨heq, _⟩ <;> omega

theorem roundDiv_le {n d k : Nat} (hd : 0 < d) (h : n ≤ k * d) : roundDiv n d ≤ k := by
  rcases roundDiv_cases n d with ⟨heq, _⟩ | ⟨heq, hrest⟩
  · rw [heq]
    exact Nat.div_le_of_le_mul (by rwa [Nat.mul_comm])
  · rw [heq]
    refine Nat.succ_le_of_lt ((Nat.div_lt_iff_lt_mul hd).2 (lt_of_le_of_ne h ?_))
    -- a quotient that is rounded up leaves a rest
    rintro rfl
    rw [Nat.mul_mod_left] at hrest
    omega

/-- The rounded quotient is off by at most a half. -/
theorem roundDiv_near (n : Nat) {d : Nat} (hd : 0 < d) :
    2 * n ≤ 2 * (roundDiv n d * d) + d ∧ 2 * (roundDiv n d * d) ≤ 2 * n + d := by
  have hn : n = n / d * d + n % d := (Nat.div_add_mod' n d).symm
  rcases roundDiv_cases n d with ⟨heq, hrest⟩ | ⟨heq, hrest⟩
  · rw [heq]
    omega
  · rw [heq, Nat.add_mul]
    have hlt : n % d < d := Nat.mod_lt n hd
    omega

theorem roundDiv_parity (n d : Nat) :
    roundDiv n d % 2 = 0 ∨ 2 * (n % d) ≠ d := by
  unfold roundDiv
  simp only
  split
  · next h =>
    simp only [Bool.or_eq_true, decide_eq_true_eq, Bool.and_eq_true, beq_iff_eq] at h
    omega
  · next h =>
    simp only [Bool.or_eq_true, decide_eq_true_eq, Bool.and_eq_true, beq_iff_eq, not_or] at h
    omega

/-- The numbers that a ratio lies halfway between are not odd. -/
theorem roundDiv_odd {n d : Nat} (hd : 0 < d) (h : roundDiv n d % 2 = 1) :
    2 * n ≠ 2 * (roundDiv n d * d) + d ∧ 2 * (roundDiv n d * d) ≠ 2 * n + d := by
  have hn : n = n / d * d + n % d := (Nat.div_add_mod' n d).symm
  have hlt : n % d < d := Nat.mod_lt n hd
  have hhalf := (roundDiv_parity n d).resolve_left (by omega)
  rcases roundDiv_cases n d with ⟨heq, hrest⟩ | ⟨heq, hrest⟩
  · rw [heq]
    omega
  · rw [heq, Nat.add_mul]
    omega

/-- Of two integers that a ratio is half off, one is odd. -/
theorem not_half_off {n d j k : Nat} (hd : 0 < d) (hlt : j < k) (hj : 2 * n ≤ 2 * (j * d) + d)
    (hk : 2 * (k * d) ≤ 2 * n + d) (hjodd : j % 2 = 1 → 2 * n ≠ 2 * (j * d) + d)
    (hkodd : k % 2 = 1 → 2 * (k * d) ≠ 2 * n + d) : False := by
  have hstep : (j + 1) * d ≤ k * d := Nat.mul_le_mul_right d hlt
  rw [Nat.add_mul] at hstep
  rcases Nat.lt_or_eq_of_le (Nat.succ_le_of_lt hlt) with hfar | rfl
  · have hfar : (j + 2) * d ≤ k * d := Nat.mul_le_mul_right d hfar
    rw [Nat.add_mul] at hfar
    omega
  · rw [Nat.succ_mul] at hk hkodd
    omega

/-- A quotient is rounded to an integer exactly when it is at most half off, and less than that if
the integer is odd. -/
theorem roundDiv_eq_iff {n d k : Nat} (hd : 0 < d) :
    roundDiv n d = k ↔ 2 * n ≤ 2 * (k * d) + d ∧ 2 * (k * d) ≤ 2 * n + d ∧
      (k % 2 = 1 → 2 * n ≠ 2 * (k * d) + d ∧ 2 * (k * d) ≠ 2 * n + d) := by
  have hodd := roundDiv_odd (n := n) hd
  obtain ⟨hlow, hhigh⟩ := roundDiv_near n hd
  constructor
  · rintro rfl
    exact ⟨hlow, hhigh, hodd⟩
  · rintro ⟨hlow', hhigh', hodd'⟩
    rcases Nat.lt_trichotomy (roundDiv n d) k with hlt | heq | hlt
    · exact (not_half_off hd hlt hlow hhigh' (fun h => (hodd h).1) fun h => (hodd' h).2).elim
    · exact heq
    · exact (not_half_off hd hlt hlow' hhigh (fun h => (hodd' h).1) fun h => (hodd h).2).elim

/-! ### The grid of a ratio -/

/-- The exponent of the grid on which a ratio is rounded. -/
def gridExponent (n d : Nat) : Nat := Nat.log2 (n / d) - 52

/-- A ratio, rounded on its grid. -/
def rounded (n d : Nat) : Nat := roundDiv n (d * 2 ^ gridExponent n d) * 2 ^ gridExponent n d

theorem lt_grid {n d : Nat} (hd : 0 < d) : n < 2 ^ 53 * (d * 2 ^ gridExponent n d) := by
  have hlog : n / d < 2 ^ (Nat.log2 (n / d) + 1) := Nat.lt_log2_self
  have hexp : (2 : Nat) ^ (Nat.log2 (n / d) + 1) ≤ 2 ^ (53 + gridExponent n d) :=
    Nat.pow_le_pow_right (by omega) (by unfold gridExponent; omega)
  have hquot : n < 2 ^ (53 + gridExponent n d) * d :=
    (Nat.div_lt_iff_lt_mul hd).1 (lt_of_lt_of_le hlog hexp)
  calc n < 2 ^ (53 + gridExponent n d) * d := hquot
    _ = 2 ^ 53 * (d * 2 ^ gridExponent n d) := by rw [pow_add]; ring

theorem grid_le {n d : Nat} (hd : 0 < d) (h : 0 < gridExponent n d) :
    2 ^ 52 * (d * 2 ^ gridExponent n d) ≤ n := by
  have hne : n / d ≠ 0 := by
    intro hzero
    rw [gridExponent, hzero] at h
    simp at h
  have hlog : 2 ^ Nat.log2 (n / d) ≤ n / d := Nat.log2_self_le hne
  have hexp : Nat.log2 (n / d) = 52 + gridExponent n d := by
    unfold gridExponent at h ⊢
    omega
  calc 2 ^ 52 * (d * 2 ^ gridExponent n d) = 2 ^ Nat.log2 (n / d) * d := by
        rw [hexp, pow_add]; ring
    _ ≤ n := (Nat.le_div_iff_mul_le hd).1 hlog

theorem gridExponent_eq {n d p : Nat} (hd : 0 < d) (hlow : 2 ^ 52 * 2 ^ p * d ≤ n)
    (hhigh : n < 2 ^ 53 * 2 ^ p * d) : gridExponent n d = p := by
  have hquot : Nat.log2 (n / d) = 52 + p := by
    have hge : 2 ^ (52 + p) ≤ n / d := by
      rw [pow_add]
      exact (Nat.le_div_iff_mul_le hd).2 hlow
    have hlt : n / d < 2 ^ (52 + p + 1) := by
      rw [show 52 + p + 1 = 53 + p by omega, pow_add]
      exact (Nat.div_lt_iff_lt_mul hd).2 hhigh
    exact (Nat.log2_eq_iff (by omega)).2 ⟨hge, hlt⟩
  rw [gridExponent, hquot]
  omega

/-! ### Numbers and the grid -/

/-- A number that is at most a ratio is at most the rounded ratio. -/
theorem le_rounded {n d m q : Nat} (hd : 0 < d) (hm : m < 2 ^ 53) (h : m * 2 ^ q * d ≤ n) :
    m * 2 ^ q ≤ rounded n d := by
  rw [rounded]
  generalize hp : gridExponent n d = p
  have hpos : 0 < d * 2 ^ p := by positivity
  rcases Nat.lt_or_ge q p with hlt | hle
  · -- below the binade of the ratio every number is below every point of the grid
    have hgrid : 2 ^ 52 * (d * 2 ^ p) ≤ n := by
      rw [← hp]
      exact grid_le hd (by omega)
    calc m * 2 ^ q ≤ 2 ^ 53 * 2 ^ q := Nat.mul_le_mul_right _ hm.le
      _ = 2 ^ 52 * 2 ^ (q + 1) := by ring
      _ ≤ 2 ^ 52 * 2 ^ p := Nat.mul_le_mul_left _ (Nat.pow_le_pow_right (by omega) hlt)
      _ ≤ roundDiv n (d * 2 ^ p) * 2 ^ p := Nat.mul_le_mul_right _ (le_roundDiv hpos hgrid)
  · obtain ⟨k, rfl⟩ := Nat.exists_eq_add_of_le hle
    have hpoint : m * 2 ^ k * (d * 2 ^ p) ≤ n := by
      calc m * 2 ^ k * (d * 2 ^ p) = m * 2 ^ (p + k) * d := by ring
        _ ≤ n := h
    calc m * 2 ^ (p + k) = m * 2 ^ k * 2 ^ p := by ring
      _ ≤ roundDiv n (d * 2 ^ p) * 2 ^ p := Nat.mul_le_mul_right _ (le_roundDiv hpos hpoint)

/-- A number that is at least a ratio is at least the rounded ratio. -/
theorem rounded_le {n d m q : Nat} (hd : 0 < d) (hm : m < 2 ^ 53) (h : n ≤ m * 2 ^ q * d) :
    rounded n d ≤ m * 2 ^ q := by
  rw [rounded]
  generalize hp : gridExponent n d = p
  have hpos : 0 < d * 2 ^ p := by positivity
  rcases Nat.lt_or_ge q p with hlt | hle
  · have hgrid : 2 ^ 52 * (d * 2 ^ p) ≤ n := by
      rw [← hp]
      exact grid_le hd (by omega)
    have hbelow : m * 2 ^ q * d < 2 ^ 52 * (d * 2 ^ p) := by
      calc m * 2 ^ q * d < 2 ^ 53 * 2 ^ q * d := by gcongr
        _ = 2 ^ 52 * (d * 2 ^ (q + 1)) := by ring
        _ ≤ 2 ^ 52 * (d * 2 ^ p) := by
          gcongr
          · omega
          · exact hlt
    omega
  · obtain ⟨k, rfl⟩ := Nat.exists_eq_add_of_le hle
    have hpoint : n ≤ m * 2 ^ k * (d * 2 ^ p) := by
      calc n ≤ m * 2 ^ (p + k) * d := h
        _ = m * 2 ^ k * (d * 2 ^ p) := by ring
    calc roundDiv n (d * 2 ^ p) * 2 ^ p ≤ m * 2 ^ k * 2 ^ p :=
          Nat.mul_le_mul_right _ (roundDiv_le hpos hpoint)
      _ = m * 2 ^ (p + k) := by ring

theorem rounded_eq {n d m q : Nat} (hd : 0 < d) (hm : m < 2 ^ 53) (h : n = m * 2 ^ q * d) :
    rounded n d = m * 2 ^ q :=
  le_antisymm (rounded_le hd hm h.le) (le_rounded hd hm h.ge)

/-- A natural number is rounded by less than one part in `2 ^ 53`. -/
theorem rounded_near (n : Nat) :
    2 ^ 53 * n ≤ 2 ^ 53 * rounded n 1 + n ∧ 2 ^ 53 * rounded n 1 ≤ 2 ^ 53 * n + n := by
  rw [rounded]
  have hgrid : 0 < gridExponent n 1 → 2 ^ 52 * (1 * 2 ^ gridExponent n 1) ≤ n :=
    grid_le Nat.one_pos
  generalize gridExponent n 1 = p at hgrid ⊢
  obtain ⟨hlow, hhigh⟩ := roundDiv_near n (d := 1 * 2 ^ p) (by positivity)
  rw [one_mul] at hlow hhigh hgrid ⊢
  rcases Nat.eq_zero_or_pos p with rfl | hp
  · -- on the grid of the integers nothing is rounded
    rw [pow_zero] at hlow hhigh ⊢
    omega
  · have hn := hgrid hp
    omega

/-! ### The number nearest to a ratio -/

/-- The mantissa of a rounded ratio, before it is carried over to the next exponent. -/
theorem mantissa_le {n d : Nat} (hd : 0 < d) : roundDiv n (d * 2 ^ gridExponent n d) ≤ 2 ^ 53 :=
  roundDiv_le (by positivity) (lt_grid hd).le

theorem le_mantissa {n d : Nat} (hd : 0 < d) (h : 0 < gridExponent n d) :
    2 ^ 52 ≤ roundDiv n (d * 2 ^ gridExponent n d) :=
  le_roundDiv (by positivity) (grid_le hd h)

/-- A ratio becomes its mantissa on the grid, carried over to the next exponent when that is full, or
infinite when the exponent is out of range. -/
theorem ofRatio_grid (negative : Bool) {num den n g r : Nat} (hden : 0 < den)
    (hn : num * 2 ^ place = n) (hg : gridExponent n den = g) (hr : roundDiv n (den * 2 ^ g) = r) :
    (r = 2 ^ 53 ∧ ofRatio negative num den =
        if g + 1 ≤ maxExponent then .finite negative (2 ^ 52) (g + 1) else .infinite negative) ∨
      (r < 2 ^ 53 ∧ ofRatio negative num den =
        if g ≤ maxExponent then .finite negative r g else .infinite negative) := by
  have hle : r ≤ 2 ^ 53 := by
    rw [← hr, ← hg]
    exact mantissa_le hden
  have hpow : ∀ a b, a ^ b = Nat.pow a b := fun _ _ => rfl
  rw [gridExponent] at hg
  rw [hpow 2 g] at hr
  -- the body is put in place of the name before it is applied, and the powers stay names, so that
  -- nothing is computed
  generalize hf : ofRatio = f
  delta ofRatio at hf
  subst hf
  beta_reduce
  generalize maxExponent = top
  generalize place = unit at hn ⊢
  dsimp -iota only
  rw [hpow 2 unit] at hn
  rw [hn, hg, hr]
  by_cases hcarry : r = Nat.pow 2 53
  · rw [if_pos hcarry]
    exact .inl ⟨hcarry, rfl⟩
  · rw [if_neg hcarry]
    exact .inr ⟨lt_of_le_of_ne hle hcarry, rfl⟩

/-- A ratio is rounded to a finite number, or to infinity when that number is out of range. -/
theorem ofRatio_cases (negative : Bool) (num : Nat) {den : Nat} (hden : 0 < den) :
    (∃ m q, ofRatio negative num den = .finite negative m q ∧ m < 2 ^ 53 ∧ q ≤ maxExponent ∧
        m * 2 ^ q = rounded (num * 2 ^ place) den) ∨
      (ofRatio negative num den = .infinite negative ∧
        2 ^ 53 * 2 ^ maxExponent ≤ rounded (num * 2 ^ place) den) := by
  have htop : 0 < maxExponent := by decide
  generalize hn : num * 2 ^ place = n
  rw [rounded]
  generalize hg : gridExponent n den = g
  generalize hr : roundDiv n (den * 2 ^ g) = r
  have hge : 0 < g → 2 ^ 52 ≤ r := by
    rw [← hr, ← hg]
    exact le_mantissa hden
  have hcases := ofRatio_grid negative hden hn hg hr
  generalize maxExponent = top at hcases htop ⊢
  rcases hcases with ⟨hfull, heq⟩ | ⟨hlt, heq⟩
  · by_cases hin : g + 1 ≤ top
    · refine .inl ⟨2 ^ 52, g + 1, heq.trans (if_pos hin), by decide, hin, ?_⟩
      rw [hfull]
      ring
    · refine .inr ⟨heq.trans (if_neg hin), ?_⟩
      rw [hfull]
      exact Nat.mul_le_mul_left _ (Nat.pow_le_pow_right (by omega) (by omega))
  · by_cases hin : g ≤ top
    · exact .inl ⟨r, g, heq.trans (if_pos hin), hlt, hin, rfl⟩
    · refine .inr ⟨heq.trans (if_neg hin), ?_⟩
      -- so large an exponent has a full mantissa
      calc 2 ^ 53 * 2 ^ top = 2 ^ 52 * 2 ^ (top + 1) := by ring
        _ ≤ r * 2 ^ g :=
          Nat.mul_le_mul (hge (by omega)) (Nat.pow_le_pow_right (by omega) (by omega))

theorem precise_ofRatio (negative : Bool) (num : Nat) {den : Nat} (hden : 0 < den) :
    (ofRatio negative num den).Precise := by
  rcases ofRatio_cases negative num hden with ⟨m, q, heq, hm, hq, _⟩ | ⟨heq, _⟩
  · rw [heq]
    exact ⟨hm, hq⟩
  · rw [heq]
    trivial

theorem precise_ofDecimal (negative : Bool) (d : Decimal) : (ofDecimal negative d).Precise := by
  have hzero : (finite negative 0 0).Precise := ⟨by decide, Nat.zero_le _⟩
  unfold ofDecimal
  simp only
  split
  · exact hzero
  · split
    · trivial
    · split
      · exact hzero
      · split
        · exact precise_ofRatio negative _ Nat.one_pos
        · exact precise_ofRatio negative _ (Nat.pow_pos (by decide))

end Covenant.Double
