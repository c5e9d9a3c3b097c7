import Covenant.Number.Shortest
import Covenant.Proofs.Number.Rounding

/-! The interval of a number of double precision holds just the integers that are rounded to it. Its
ends lie halfway to the neighbours of the number, the lower one at a quarter below a power of two, and
belong to the interval when the mantissa is even. -/
namespace Covenant.Double

namespace Interval

variable {i : Interval} {a b c : Nat}

theorem holds_iff : i.holds a = true ↔
    i.low ≤ a ∧ a ≤ i.high ∧ (i.closed = false → a ≠ i.low ∧ a ≠ i.high) := by
  unfold holds
  cases i.closed with
  | true => simp
  | false =>
    simp only [Bool.false_eq_true, ↓reduceIte, Bool.and_eq_true, decide_eq_true_eq, forall_const]
    omega

/-- The ends of an interval lie on both sides of its value, and not too far from it. -/
structure Proper (i : Interval) : Prop where
  den_pos : 0 < i.den
  low_pos : 0 < i.low
  low_lt : i.low < i.value
  lt_high : i.value < i.high
  high_le : i.high ≤ 2 * i.value

/-- What lies between a member of an interval and its value is a member. -/
theorem Proper.holds_of_le (hi : i.Proper) (h : i.holds a = true) (hab : a ≤ b)
    (hb : b ≤ i.value) : i.holds b = true := by
  have hlow := hi.low_lt
  have hhigh := hi.lt_high
  rw [holds_iff] at h ⊢
  refine ⟨by omega, by omega, fun hopen => ?_⟩
  have hne := h.2.2 hopen
  omega

theorem Proper.holds_of_ge (hi : i.Proper) (h : i.holds c = true) (hbc : b ≤ c)
    (hb : i.value ≤ b) : i.holds b = true := by
  have hlow := hi.low_lt
  have hhigh := hi.lt_high
  rw [holds_iff] at h ⊢
  refine ⟨by omega, by omega, fun hopen => ?_⟩
  have hne := h.2.2 hopen
  omega

/-- Zero is below every interval. -/
theorem Proper.factor_pos (hi : i.Proper) (h : i.holds (a * b) = true) : 0 < a := by
  refine Nat.pos_of_ne_zero ?_
  rintro rfl
  have hlow := (holds_iff.1 h).1
  have hpos := hi.low_pos
  rw [Nat.zero_mul] at hlow
  omega

end Interval

/-! ### The integers in an interval -/

variable {m q k : Nat}

theorem interval_den (m q : Nat) : (interval m q).den = 4 * 2 ^ place := by
  delta interval
  generalize place = unit
  rfl

theorem interval_value (m q : Nat) : (interval m q).value = 4 * (m * 2 ^ q) :=
  Nat.mul_assoc 4 m (2 ^ q)

theorem interval_den_pos (m q : Nat) : 0 < (interval m q).den := by
  rw [interval_den]
  exact Nat.mul_pos (by decide) (Nat.two_pow_pos place)

theorem interval_proper (hm : 0 < m) (q : Nat) : (interval m q).Proper where
  den_pos := interval_den_pos m q
  low_pos := by
    refine Nat.mul_pos ?_ (Nat.two_pow_pos q)
    split <;> omega
  low_lt := by
    refine Nat.mul_lt_mul_of_pos_right ?_ (Nat.two_pow_pos q)
    split <;> omega
  lt_high := Nat.mul_lt_mul_of_pos_right (by omega) (Nat.two_pow_pos q)
  high_le := by
    show (4 * m + 2) * 2 ^ q ≤ 2 * (4 * m * 2 ^ q)
    rw [← Nat.mul_assoc]
    exact Nat.mul_le_mul_right _ (by omega)

/-- How far the lower end is from the number, over four times its unit. -/
def slack (m q : Nat) : Nat := if m = 2 ^ 52 ∧ q ≠ 0 then 1 else 2

theorem slack_le (m q : Nat) : slack m q ≤ 2 := by
  rw [slack]
  split <;> omega

theorem slack_of_odd (h : m % 2 = 1) (q : Nat) : slack m q = 2 := by
  rw [slack, if_neg]
  rintro ⟨rfl, -⟩
  exact absurd h (by decide)

theorem interval_low (hm : 0 < m) (q : Nat) :
    (interval m q).low + slack m q * 2 ^ q = 4 * (m * 2 ^ q) := by
  have hends : (if m = Nat.pow 2 52 && q ≠ 0 then 4 * m - 1 else 4 * m - 2) + slack m q = 4 * m := by
    rw [slack]
    simp only [Bool.and_eq_true, decide_eq_true_eq, ne_eq]
    change (if m = 2 ^ 52 ∧ ¬q = 0 then 4 * m - 1 else 4 * m - 2) + _ = _
    split <;> omega
  show (if m = Nat.pow 2 52 && q ≠ 0 then 4 * m - 1 else 4 * m - 2) * 2 ^ q + _ = _
  rw [← Nat.add_mul, hends, Nat.mul_assoc]

theorem interval_high (m q : Nat) : (interval m q).high = 4 * (m * 2 ^ q) + 2 * 2 ^ q := by
  show (4 * m + 2) * 2 ^ q = _
  rw [Nat.add_mul, Nat.mul_assoc]

theorem interval_open_iff (m q : Nat) : (interval m q).closed = false ↔ m % 2 = 1 := by
  show decide (m % 2 = 0) = false ↔ _
  rw [decide_eq_false_iff_not]
  omega

/-- The members of the interval of a number, by their distance. -/
theorem interval_holds_iff (hm : 0 < m) {s : Nat} :
    (interval m q).holds (4 * s) = true ↔
      4 * (m * 2 ^ q) ≤ 4 * s + slack m q * 2 ^ q ∧ 4 * s ≤ 4 * (m * 2 ^ q) + 2 * 2 ^ q ∧
        (m % 2 = 1 → 4 * (m * 2 ^ q) ≠ 4 * s + 2 * 2 ^ q ∧ 4 * s ≠ 4 * (m * 2 ^ q) + 2 * 2 ^ q) := by
  have hlow := interval_low hm q
  rw [Interval.holds_iff, interval_high, interval_open_iff]
  have hslack := fun hodd : m % 2 = 1 => slack_of_odd hodd q
  generalize m * 2 ^ q = x at hlow ⊢
  generalize 2 ^ q = unit at hlow ⊢
  generalize (interval m q).low = low at hlow ⊢
  constructor
  · rintro ⟨hle, hge, hne⟩
    refine ⟨by omega, hge, fun hodd => ?_⟩
    rw [hslack hodd] at hlow
    have hends := hne hodd
    omega
  · rintro ⟨hle, hge, hne⟩
    refine ⟨by omega, hge, fun hodd => ?_⟩
    rw [hslack hodd] at hlow
    have hends := hne hodd
    omega

/-! ### Rounding to a number -/

theorem mul_den (m q k : Nat) : k * (interval m q).den = 4 * (k * 2 ^ place) := by
  rw [interval_den, Nat.mul_left_comm]

/-- The units of an integer that is rounded to a number with a full mantissa lie in its interval. -/
theorem holds_of_ofNat_eq (hm : 2 ^ 52 ≤ m) (h : ofNat k = .finite false m q) :
    (interval m q).holds (4 * (k * 2 ^ place)) = true := by
  rw [interval_holds_iff (by omega)]
  generalize hn : k * 2 ^ place = n
  generalize hg : gridExponent n 1 = g
  generalize hr : roundDiv n (1 * 2 ^ g) = r
  have hgrid : n < 2 ^ 53 * (1 * 2 ^ g) := by
    rw [← hg]
    exact lt_grid Nat.one_pos
  have hfull : 0 < g → 2 ^ 52 * (1 * 2 ^ g) ≤ n := by
    rw [← hg]
    exact grid_le Nat.one_pos
  have hround := (roundDiv_eq_iff (Nat.mul_pos Nat.one_pos (Nat.two_pow_pos g))).1 hr
  have hcases := ofRatio_grid false Nat.one_pos hn hg hr
  rw [show ofRatio false k 1 = .finite false m q from h] at hcases
  rw [Nat.one_mul] at hround hgrid hfull
  rcases hcases with ⟨rfl, heq⟩ | ⟨hlt, heq⟩
  · -- the mantissa was carried over: the number is a power of two, and the integer is below it
    split at heq
    · obtain ⟨-, rfl, rfl⟩ := finite.inj heq
      rw [slack, if_pos ⟨rfl, by omega⟩, pow_succ 2 g]
      generalize 2 ^ g = unit at hround hgrid ⊢
      omega
    · cases heq
  · split at heq
    · obtain ⟨-, rfl, rfl⟩ := finite.inj heq
      have hslack : slack m q = 2 ∨ (slack m q = 1 ∧ m = 2 ^ 52 ∧ 0 < q) := by
        rw [slack]
        split
        · next h => exact .inr ⟨rfl, h.1, Nat.pos_of_ne_zero h.2⟩
        · exact .inl rfl
      rcases hslack with hslack | ⟨hslack, rfl, hq⟩
      · rw [hslack]
        omega
      · have hle := hfull hq
        rw [hslack]
        omega
    · cases heq

/-- Only the interval of a power of two has members below the binade of the number, and these are rounded
up to it. -/
theorem power_of_below (hm : 2 ^ 52 ≤ m) {n : Nat} (h : (interval m q).holds (4 * n) = true)
    (hbelow : n < 2 ^ 52 * 2 ^ q) :
    ∃ g, m = 2 ^ 52 ∧ q = g + 1 ∧ 2 * (2 ^ 53 * 2 ^ g) ≤ 2 * n + 2 ^ g := by
  obtain ⟨hlow, -, -⟩ := (interval_holds_iff (by omega)).1 h
  have hunit := Nat.two_pow_pos q
  have hpower : m = 2 ^ 52 := by
    by_contra hne
    have hstep : (2 ^ 52 + 1) * 2 ^ q ≤ m * 2 ^ q := Nat.mul_le_mul_right _ (by omega)
    rw [Nat.add_mul] at hstep
    rw [slack, if_neg (fun h => hne h.1)] at hlow
    omega
  subst hpower
  cases q with
  | zero =>
    rw [slack, if_neg (fun h => h.2 rfl)] at hlow
    omega
  | succ g =>
    rw [slack, if_pos ⟨rfl, by omega⟩, pow_succ 2 g] at hlow
    exact ⟨g, rfl, rfl, by omega⟩

/-- An integer whose units lie in the interval of a number with a full mantissa is rounded to it. -/
theorem ofNat_eq_of_holds (hm : 2 ^ 52 ≤ m) (hm' : m < 2 ^ 53) (hq : q ≤ maxExponent)
    (h : (interval m q).holds (4 * (k * 2 ^ place)) = true) : ofNat k = .finite false m q := by
  generalize hn : k * 2 ^ place = n at h
  obtain ⟨hlow, hhigh, hodd⟩ := (interval_holds_iff (by omega)).1 h
  have hunit := Nat.two_pow_pos q
  rcases Nat.lt_or_ge n (2 ^ 52 * 2 ^ q) with hbelow | hfull
  · obtain ⟨g, rfl, rfl, hhalf⟩ := power_of_below hm h hbelow
    rw [pow_succ 2 g] at hbelow
    have hg : gridExponent n 1 = g := gridExponent_eq Nat.one_pos (by omega) (by omega)
    have hr : roundDiv n (1 * 2 ^ g) = 2 ^ 53 := by
      rw [roundDiv_eq_iff (Nat.mul_pos Nat.one_pos (Nat.two_pow_pos g)), Nat.one_mul]
      refine ⟨by omega, hhalf, fun h => absurd h (by decide)⟩
    rcases ofRatio_grid false Nat.one_pos hn hg hr with ⟨-, heq⟩ | ⟨hlt, -⟩
    · exact heq.trans (if_pos hq)
    · exact absurd hlt (lt_irrefl _)
  · have hstep : (m + 1) * 2 ^ q ≤ 2 ^ 53 * 2 ^ q := Nat.mul_le_mul_right _ hm'
    rw [Nat.add_mul] at hstep
    have hg : gridExponent n 1 = q := gridExponent_eq Nat.one_pos (by omega) (by omega)
    have hr : roundDiv n (1 * 2 ^ q) = m := by
      rw [roundDiv_eq_iff (Nat.mul_pos Nat.one_pos hunit), Nat.one_mul]
      have hends : slack m q * 2 ^ q ≤ 2 * 2 ^ q := Nat.mul_le_mul_right _ (slack_le m q)
      refine ⟨by omega, by omega, fun h => ?_⟩
      have hne := hodd h
      omega
    rcases ofRatio_grid false Nat.one_pos hn hg hr with ⟨heq, -⟩ | ⟨-, heq⟩
    · omega
    · exact heq.trans (if_pos hq)

theorem pow_le_rounded {n p : Nat} (h : 2 ^ p ≤ n) : 2 ^ p ≤ rounded n 1 := by
  have hle : 1 * 2 ^ p ≤ rounded n 1 := le_rounded Nat.one_pos (by decide) (by omega)
  rwa [Nat.one_mul] at hle

theorem rounded_le_pow {n p : Nat} (h : n ≤ 2 ^ p) : rounded n 1 ≤ 2 ^ p := by
  have hle : rounded n 1 ≤ 1 * 2 ^ p := rounded_le Nat.one_pos (by decide) (by omega)
  rwa [Nat.one_mul] at hle

/-- From 1 on numbers have a full mantissa, and up to `2 ^ 64` an exponent. -/
theorem exists_ofNat_eq_rounded {n : Nat} (hn : k * 2 ^ place = n) (hlow : 2 ^ place ≤ n)
    (hhigh : n ≤ 2 ^ (64 + place)) : ∃ m q, ofNat k = .finite false m q ∧ 2 ^ 52 ≤ m ∧ m < 2 ^ 53 ∧
      q ≤ maxExponent ∧ m * 2 ^ q = rounded n 1 := by
  have hplace : 52 < place ∧ place + 13 ≤ maxExponent := by decide
  have hpow : 2 ^ (64 + place) < 2 ^ (place + 65) := Nat.pow_lt_pow_right (by decide) (by omega)
  have hne : n ≠ 0 := (lt_of_lt_of_le (Nat.two_pow_pos place) hlow).ne'
  have hlog : place ≤ Nat.log2 n ∧ Nat.log2 n < place + 65 :=
    ⟨(Nat.le_log2 hne).2 hlow, (Nat.log2_lt hne).2 (lt_of_le_of_lt hhigh hpow)⟩
  generalize hg : gridExponent n 1 = g
  generalize hr : roundDiv n (1 * 2 ^ g) = r
  have hexp : 0 < g ∧ g + 1 ≤ maxExponent := by
    rw [gridExponent, Nat.div_one] at hg
    omega
  have hunits : rounded n 1 = r * 2 ^ g := by rw [rounded, hg, hr]
  have hmantissa : 2 ^ 52 ≤ r := by
    rw [← hr, ← hg]
    exact le_mantissa Nat.one_pos (by omega)
  rcases ofRatio_grid false Nat.one_pos hn hg hr with ⟨rfl, heq⟩ | ⟨hlt, heq⟩
  · refine ⟨2 ^ 52, g + 1, heq.trans (if_pos hexp.2), le_rfl, by decide, hexp.2, ?_⟩
    rw [hunits]
    ring
  · exact ⟨r, g, heq.trans (if_pos (by omega)), hmantissa, hlt, by omega, hunits.symm⟩

/-- A positive integer of 64 bits is rounded to a number with a full mantissa, between 1 and `2 ^ 64`. -/
theorem exists_ofNat_eq (hpos : 0 < k) (hk : k ≤ 2 ^ 64) :
    ∃ m q, ofNat k = .finite false m q ∧ 2 ^ 52 ≤ m ∧ m < 2 ^ 53 ∧ q ≤ maxExponent ∧
      2 ^ place ≤ m * 2 ^ q ∧ m * 2 ^ q ≤ 2 ^ (64 + place) := by
  generalize hn : k * 2 ^ place = n
  have hlow : 2 ^ place ≤ n := hn ▸ Nat.le_mul_of_pos_left _ hpos
  have hhigh : n ≤ 2 ^ (64 + place) := by
    rw [← hn, pow_add 2 64 place]
    exact Nat.mul_le_mul_right _ hk
  obtain ⟨m, q, heq, hm, hm', hq, hunits⟩ := exists_ofNat_eq_rounded hn hlow hhigh
  refine ⟨m, q, heq, hm, hm', hq, ?_, ?_⟩
  · rw [hunits]
    exact pow_le_rounded hlow
  · rw [hunits]
    exact rounded_le_pow hhigh

/-- The integers that are rounded to a number with a full mantissa are those of its interval. -/
theorem ofNat_eq_iff_holds (hm : 2 ^ 52 ≤ m) (hm' : m < 2 ^ 53) (hq : q ≤ maxExponent) :
    ofNat k = .finite false m q ↔ (interval m q).holds (k * (interval m q).den) = true := by
  rw [mul_den]
  exact ⟨holds_of_ofNat_eq hm, ofNat_eq_of_holds hm hm' hq⟩

end Covenant.Double
