import Covenant.Number.Layout
import Covenant.Proofs.Number.Interval

/-! The shortest digits of a number. The grids of the powers of ten are tried from the coarsest that can
meet the interval of the number down to the integers, and on the first that meets it the member next to
the number is taken. -/
namespace Covenant.Double

/-- The integer is in the interval. -/
def Interval.Meets (i : Interval) (k : Nat) : Prop := i.holds (k * i.den) = true

/-- How far an integer is from the value of the interval. -/
def Interval.gap (i : Interval) (k : Nat) : Nat := ((k * i.den : Nat) - (i.value : Int)).natAbs

/-- The first integer is nearer to the value than the second one, or as near and not below it. -/
def Interval.Prefers (i : Interval) (n k : Nat) : Prop :=
  i.gap n < i.gap k ∨ (i.gap n = i.gap k ∧ k ≤ n)

variable {i : Interval} {d e f j k step : Nat}

/-! ### One grid -/

/-- The two points of a grid around the value of an interval, as multiples of its step. -/
theorem onGrid_up (i : Interval) (e : Nat) (hstep : i.den * 10 ^ e = step)
    (hf : i.value / step = f) :
    onGrid .up i e =
      if i.holds (f * step) = true ∧ f ≠ 0 then
        if i.holds ((f + 1) * step) = true then
          some (if 2 * (i.value % step) < step then f else f + 1)
        else some f
      else if i.holds ((f + 1) * step) = true then some (f + 1) else none := by
  have htenTo : tenTo (e : Int) = (10 ^ e, 1) := by
    rw [tenTo, if_pos (Int.natCast_nonneg e)]
    rfl
  unfold onGrid
  rw [htenTo]
  simp only [Nat.mul_one]
  rw [hstep, hf]
  simp only [Bool.and_eq_true, bne_iff_ne, ne_eq, Bool.or_eq_true, decide_eq_true_eq, beq_iff_eq,
    reduceCtorEq, and_false, false_and, or_false]
  by_cases hbelow : i.holds (f * step) = true ∧ f ≠ 0
  · by_cases habove : i.holds ((f + 1) * step) = true
    · rw [if_pos ⟨hbelow, habove⟩, if_pos hbelow, if_pos habove]
    · rw [if_neg fun h => habove h.2, if_pos hbelow, if_pos hbelow, if_neg habove]
  · rw [if_neg fun h => hbelow h.1, if_neg hbelow, if_neg hbelow]

/-- A point of the grid that is below the value and in the interval brings its neighbour in. -/
theorem holds_below (hi : i.Proper) (hf : i.value / step = f) (hj : i.holds (j * step) = true)
    (hle : j ≤ f) : i.holds (f * step) = true ∧ f ≠ 0 := by
  have hvalue : f * step ≤ i.value := hf ▸ Nat.div_mul_le_self i.value step
  exact ⟨hi.holds_of_le hj (Nat.mul_le_mul_right step hle) hvalue,
    (lt_of_lt_of_le (hi.factor_pos hj) hle).ne'⟩

theorem holds_above (hi : i.Proper) (hstep : 0 < step) (hf : i.value / step = f)
    (hj : i.holds (j * step) = true) (hlt : f < j) : i.holds ((f + 1) * step) = true := by
  refine hi.holds_of_ge hj (Nat.mul_le_mul_right step hlt) ?_
  rw [← hf, Nat.succ_mul]
  exact (Nat.lt_div_mul_add hstep).le

theorem holds_mul (hstep : i.den * 10 ^ e = step) (j : Nat) :
    i.holds (j * step) = true ↔ i.Meets (j * 10 ^ e) := by
  rw [← hstep, Nat.mul_comm i.den, ← Nat.mul_assoc]
  rfl

theorem onGrid_eq_none (hi : i.Proper) (h : onGrid .up i e = none) (hk : i.Meets k) :
    ¬10 ^ e ∣ k := by
  rintro ⟨j, rfl⟩
  generalize hstep : i.den * 10 ^ e = step
  generalize hf : i.value / step = f
  have hpos : 0 < step := hstep ▸ Nat.mul_pos hi.den_pos (Nat.pow_pos (by decide))
  rw [Nat.mul_comm, ← holds_mul hstep] at hk
  rw [onGrid_up i e hstep hf] at h
  rcases Nat.lt_or_ge f j with hlt | hle
  · simp only [holds_above hi hpos hf hk hlt, ↓reduceIte] at h
    split at h <;> cases h
  · rw [if_pos (holds_below hi hf hk hle)] at h
    split at h <;> cases h

/-- What is taken on a grid is in the interval. It is the point below the value, which is the nearer one
or the only one, or else the point above. -/
theorem onGrid_some_cases (hstep : i.den * 10 ^ e = step) (hf : i.value / step = f)
    (h : onGrid .up i e = some d) : i.holds (d * step) = true ∧
      ((d = f ∧ (2 * (i.value % step) < step ∨ i.holds ((f + 1) * step) = false)) ∨
        (d = f + 1 ∧ (step ≤ 2 * (i.value % step) ∨ ¬(i.holds (f * step) = true ∧ f ≠ 0)))) := by
  rw [onGrid_up i e hstep hf] at h
  split at h
  · next hbelow =>
    split at h
    · next habove =>
      obtain rfl := Option.some.inj h
      split
      · next hnear => exact ⟨hbelow.1, .inl ⟨rfl, .inl hnear⟩⟩
      · next hfar => exact ⟨habove, .inr ⟨rfl, .inl (Nat.not_lt.1 hfar)⟩⟩
    · next habove =>
      obtain rfl := Option.some.inj h
      exact ⟨hbelow.1, .inl ⟨rfl, .inr (Bool.eq_false_iff.2 habove)⟩⟩
  · next hbelow =>
    split at h
    · next habove =>
      obtain rfl := Option.some.inj h
      exact ⟨habove, .inr ⟨rfl, .inr hbelow⟩⟩
    · cases h

theorem gap_mul (hstep : i.den * 10 ^ e = step) (j : Nat) :
    i.gap (j * 10 ^ e) = ((j * step : Nat) - (i.value : Int)).natAbs := by
  rw [Interval.gap, Nat.mul_assoc, Nat.mul_comm (10 ^ e), hstep]

theorem step_apart {a b : Nat} (h : a < b) : a * step + step ≤ b * step := by
  rw [← Nat.succ_mul]
  exact Nat.mul_le_mul_right step h

/-- The point below the value is preferred when it is the nearer one of the two, or the only one. -/
theorem prefers_below (hi : i.Proper) (hstep : i.den * 10 ^ e = step) (hpos : 0 < step)
    (hf : i.value / step = f)
    (hnear : 2 * (i.value % step) < step ∨ i.holds ((f + 1) * step) = false)
    (hj : i.holds (j * step) = true) : i.Prefers (f * 10 ^ e) (j * 10 ^ e) := by
  have hrest : i.value % step < step := Nat.mod_lt _ hpos
  have hvalue : f * step + i.value % step = i.value := hf ▸ Nat.div_add_mod' i.value step
  rw [Interval.Prefers, gap_mul hstep, gap_mul hstep]
  rcases Nat.lt_trichotomy j f with hlt | rfl | hlt
  · have hapart : j * step + step ≤ f * step := step_apart hlt
    left
    omega
  · exact .inr ⟨rfl, le_rfl⟩
  · have hapart : f * step + step ≤ j * step := step_apart hlt
    rcases hnear with hnear | hout
    · left
      omega
    · rw [holds_above hi hpos hf hj hlt] at hout
      cases hout

/-- The point above the value is preferred when the one below is not nearer, or is none. -/
theorem prefers_above (hi : i.Proper) (hstep : i.den * 10 ^ e = step) (hpos : 0 < step)
    (hf : i.value / step = f)
    (hfar : step ≤ 2 * (i.value % step) ∨ ¬(i.holds (f * step) = true ∧ f ≠ 0))
    (hj : i.holds (j * step) = true) : i.Prefers ((f + 1) * 10 ^ e) (j * 10 ^ e) := by
  have hrest : i.value % step < step := Nat.mod_lt _ hpos
  have hvalue : f * step + i.value % step = i.value := hf ▸ Nat.div_add_mod' i.value step
  have hnext : (f + 1) * step = f * step + step := Nat.succ_mul f step
  rw [Interval.Prefers, gap_mul hstep, gap_mul hstep]
  rcases Nat.lt_trichotomy j (f + 1) with hlt | rfl | hlt
  · rcases hfar with hfar | hout
    · have hle : j * step ≤ f * step := Nat.mul_le_mul_right step (Nat.le_of_lt_succ hlt)
      have hpoint : j * 10 ^ e ≤ (f + 1) * 10 ^ e := Nat.mul_le_mul_right _ hlt.le
      omega
    · exact absurd (holds_below hi hf hj (Nat.le_of_lt_succ hlt)) hout
  · exact .inr ⟨rfl, le_rfl⟩
  · have hapart : (f + 1) * step + step ≤ j * step := step_apart hlt
    left
    omega

/-- What is taken on a grid is preferred to every other point of the grid in the interval. -/
theorem onGrid_eq_some (hi : i.Proper) (h : onGrid .up i e = some d) :
    i.Meets (d * 10 ^ e) ∧ ∀ k, i.Meets k → 10 ^ e ∣ k → i.Prefers (d * 10 ^ e) k := by
  generalize hstep : i.den * 10 ^ e = step
  generalize hf : i.value / step = f
  have hpos : 0 < step := hstep ▸ Nat.mul_pos hi.den_pos (Nat.pow_pos (by decide))
  obtain ⟨hd, hcases⟩ := onGrid_some_cases hstep hf h
  refine ⟨(holds_mul hstep d).1 hd, ?_⟩
  rintro k hk ⟨j, rfl⟩
  rw [Nat.mul_comm (10 ^ e)] at hk ⊢
  rw [← holds_mul hstep] at hk
  rcases hcases with ⟨rfl, hnear⟩ | ⟨rfl, hfar⟩
  · exact prefers_below hi hstep hpos hf hnear hk
  · exact prefers_above hi hstep hpos hf hfar hk

/-! ### The search -/

/-- The search finds the coarsest grid that meets the interval, as soon as some integer does. -/
theorem firstGrid_eq (hi : i.Proper) (hk : i.Meets k) {fuel top : Nat} (hfuel : top < fuel) :
    ∃ d e : Nat, firstGrid .up i fuel top = ⟨d, e⟩ ∧ onGrid .up i e = some d ∧
      ∀ finer : Nat, e < finer → finer ≤ top → onGrid .up i finer = none := by
  induction fuel generalizing top with
  | zero => omega
  | succ fuel ih =>
    rw [firstGrid]
    cases hgrid : onGrid .up i top with
    | some d => exact ⟨d, top, rfl, hgrid, fun finer hlt hle => by omega⟩
    | none =>
      cases top with
      | zero => exact absurd (one_dvd k) (onGrid_eq_none hi hgrid hk)
      | succ top =>
        obtain ⟨d, e, heq, hsome, hnone⟩ := ih (show top < fuel by omega)
        have hcast : ((top + 1 : Nat) : Int) - 1 = top := by omega
        refine ⟨d, e, ?_, hsome, fun finer hlt hle => ?_⟩
        · rw [hcast]
          exact heq
        · rcases Nat.lt_or_eq_of_le hle with hle | rfl
          · exact hnone finer hlt (Nat.le_of_lt_succ hle)
          · exact hgrid

/-- The search starts at the number of digits of the integer part. -/
theorem topPlace_eq (hi : i.Proper) (h : i.den ≤ i.value) :
    ∃ top : Nat, topPlace i = top ∧ i.value < 10 ^ top * i.den ∧
      ∀ places, 0 < places → i.value < 10 ^ places * i.den → top ≤ places := by
  refine ⟨(Nat.toDigits 10 (i.value / i.den)).length, if_pos h, ?_, fun places hpos hlt => ?_⟩
  · rw [← Nat.div_lt_iff_lt_mul hi.den_pos]
    exact (Nat.length_toDigits_le_iff (by decide) Nat.length_toDigits_pos).1 le_rfl
  · rw [Nat.length_toDigits_le_iff (by decide) hpos]
    exact (Nat.div_lt_iff_lt_mul hi.den_pos).2 hlt

/-- No integer in the interval is divisible by a power of ten beyond the first one tried. -/
theorem not_dvd_of_top (hi : i.Proper) {top : Nat} (htop : i.value < 10 ^ top * i.den)
    (hk : i.Meets k) (hlt : top < e) : ¬10 ^ e ∣ k := by
  obtain ⟨-, hhigh, -⟩ := Interval.holds_iff.1 hk
  have hlow := hi.low_lt
  have hle := hi.high_le
  intro hdvd
  have hpower : 10 ^ (top + 1) * i.den ≤ k * i.den := Nat.mul_le_mul_right _
    ((Nat.pow_le_pow_right (by decide) hlt).trans (Nat.le_of_dvd (hi.factor_pos hk) hdvd))
  rw [pow_succ 10 top, Nat.mul_right_comm] at hpower
  omega

/-- The search comes to the roundest integer of the interval, and of those as round to the one that is
preferred. -/
theorem firstGrid_topPlace (hi : i.Proper) (hk : i.Meets k) (hlow : i.den ≤ i.value)
    (hhigh : i.value < 10 ^ 23 * i.den) :
    ∃ d e : Nat, firstGrid .up i 24 (topPlace i) = ⟨d, e⟩ ∧ i.Meets (d * 10 ^ e) ∧
      (∀ k finer, i.Meets k → 10 ^ finer ∣ k → 10 ^ finer ∣ d * 10 ^ e) ∧
      ∀ k, i.Meets k → 10 ^ e ∣ k → i.Prefers (d * 10 ^ e) k := by
  obtain ⟨top, htop, hbelow, hplaces⟩ := topPlace_eq hi hlow
  have hfuel : top < 24 := Nat.lt_succ_of_le (hplaces 23 (by decide) hhigh)
  obtain ⟨d, e, heq, hsome, hnone⟩ := firstGrid_eq hi hk hfuel
  obtain ⟨hmeets, hprefers⟩ := onGrid_eq_some hi hsome
  refine ⟨d, e, htop ▸ heq, hmeets, fun k finer hk hdvd => ?_, hprefers⟩
  rcases Nat.lt_or_ge e finer with hlt | hle
  · rcases Nat.lt_or_ge top finer with hbeyond | hwithin
    · exact absurd hdvd (not_dvd_of_top hi hbelow hk hbeyond)
    · exact absurd hdvd (onGrid_eq_none hi (hnone finer hlt hwithin) hk)
  · exact (Nat.pow_dvd_pow 10 hle).trans (Nat.dvd_mul_left _ d)

/-! ### Integers that are written as they are -/

/-- An integer that stands for the number that it is rounded to. Of the integers rounded to this number
none is divisible by a higher power of ten, and of those divisible by as high a one none is nearer to
the number; of two as near, it is the larger one. -/
structure Roundest (n : Nat) : Prop where
  round : ∀ k e, ofNat k = ofNat n → 10 ^ e ∣ k → 10 ^ e ∣ n
  nearest : ∀ k v, ofNat k = ofNat n → (∀ e, 10 ^ e ∣ n → 10 ^ e ∣ k) →
    (ofNat n).value? = some v →
      |(n : ℚ) - v| < |(k : ℚ) - v| ∨ (|(n : ℚ) - v| = |(k : ℚ) - v| ∧ k ≤ n)

/-- Only one integer stands for a number. -/
theorem Roundest.unique {n l : Nat} (hn : Roundest n) (hl : Roundest l) (heq : ofNat n = ofNat l)
    {v : ℚ} (hv : (ofNat n).value? = some v) : n = l := by
  have hfirst := hn.nearest l v heq.symm (fun e he => hl.round n e heq he) hv
  have hsecond := hl.nearest n v heq (fun e he => hn.round l e heq.symm he) (heq ▸ hv)
  rcases hfirst with hlt | ⟨_, hle⟩
  · rcases hsecond with hlt' | ⟨heq', _⟩
    · exact absurd hlt hlt'.not_gt
    · exact absurd heq' hlt.ne'
  · rcases hsecond with hlt' | ⟨_, hle'⟩
    · exact absurd ‹_› hlt'.ne'
    · exact le_antisymm hle' hle

/-- Distances from a number, over the denominator of its interval. -/
theorem gap_interval (m q k : Nat) : ((interval m q).gap k : ℚ) =
    |(k : ℚ) - scaled false m q / 2 ^ place| * (interval m q).den := by
  have hvalue : ((interval m q).value : Int) = 4 * scaled false m q := by
    rw [interval_value]
    exact Nat.cast_mul 4 (m * 2 ^ q)
  have hden : ((interval m q).den : ℚ) = 4 * 2 ^ place := by
    rw [interval_den, Nat.cast_mul, Nat.cast_pow]
    rfl
  have hunit : (0 : ℚ) < 2 ^ place := by positivity
  rw [Interval.gap, Nat.cast_natAbs, hvalue]
  push_cast
  rw [hden]
  generalize (2 : ℚ) ^ place = unit at hunit ⊢
  generalize ((scaled false m q : Int) : ℚ) = x
  have hquot : x / unit * (4 * unit) = 4 * x := by rw [mul_left_comm, div_mul_cancel₀ x hunit.ne']
  rw [← hquot, ← sub_mul, abs_mul, abs_of_pos (show (0 : ℚ) < 4 * unit by positivity)]

theorem prefers_interval_iff (m q n k : Nat) : (interval m q).Prefers n k ↔
    |(n : ℚ) - scaled false m q / 2 ^ place| < |(k : ℚ) - scaled false m q / 2 ^ place| ∨
      (|(n : ℚ) - scaled false m q / 2 ^ place| = |(k : ℚ) - scaled false m q / 2 ^ place| ∧ k ≤ n) := by
  have hden : (0 : ℚ) < (interval m q).den := Nat.cast_pos.2 (interval_den_pos m q)
  rw [Interval.Prefers, ← Nat.cast_lt (α := ℚ), ← Nat.cast_inj (R := ℚ), gap_interval, gap_interval,
    mul_lt_mul_iff_left₀ hden, mul_left_inj' hden.ne']

/-! ### The text of an integer -/

theorem toDigits_mul_pow (hd : 0 < d) (e : Nat) :
    Nat.toDigits 10 (d * 10 ^ e) = Nat.toDigits 10 d ++ List.replicate e '0' := by
  induction e with
  | zero => simp
  | succ e ih =>
    have happend := Nat.toDigits_append_toDigits (b := 10) (n := d * 10 ^ e) (d := 0) (by decide)
      (Nat.mul_pos hd (Nat.pow_pos (by decide))) (by decide)
    rw [pow_succ 10 e, ← Nat.mul_assoc, Nat.mul_comm _ 10, ← Nat.add_zero (10 * _), ← happend, ih,
      List.append_assoc, List.replicate_succ']
    rfl

/-- A whole decimal is written as the integer that it is. -/
theorem writePositional_natCast (hd : 0 < d) (e : Nat) :
    plain.writePositional ⟨d, e⟩ = toString (d * 10 ^ e) := by
  rw [Layout.writePositional, if_pos (Int.natCast_nonneg e), Nat.toString_eq_ofList_toDigits,
    toDigits_mul_pow hd, String.ofList_append]
  simp [plain, zeros]

/-- Moving zeros into the exponent does not change what is written. -/
theorem writePositional_reduce (hd : 0 < d) (e fuel : Nat) :
    plain.writePositional ((⟨d, e⟩ : Decimal).reduce fuel) = toString (d * 10 ^ e) := by
  induction fuel generalizing d e with
  | zero => exact writePositional_natCast hd e
  | succ fuel ih =>
    rw [Decimal.reduce]
    split
    · next h =>
      have hmod : d % 10 = 0 := by
        simp only [Bool.and_eq_true, decide_eq_true_eq] at h
        exact h.2
      have hmul : d / 10 * 10 ^ (e + 1) = d * 10 ^ e := by
        rw [pow_succ 10 e, Nat.mul_comm _ 10, ← Nat.mul_assoc,
          Nat.div_mul_cancel (Nat.dvd_of_mod_eq_zero hmod)]
      rw [← hmul]
      exact ih (Nat.div_pos (Nat.le_of_dvd hd (Nat.dvd_of_mod_eq_zero hmod)) (by decide)) (e + 1)
    · exact writePositional_natCast hd e

/-- The search has enough fuel for all numbers of this range. -/
theorem interval_range {m q : Nat} (hlow : 2 ^ place ≤ m * 2 ^ q)
    (hhigh : m * 2 ^ q ≤ 2 ^ (64 + place)) : (interval m q).den ≤ (interval m q).value ∧
      (interval m q).value < 10 ^ 23 * (interval m q).den := by
  rw [pow_add 2 64 place] at hhigh
  rw [interval_value, interval_den]
  have hunit := Nat.two_pow_pos place
  generalize 2 ^ place = unit at hlow hhigh hunit ⊢
  omega

/-- The text of the number that an integer of 64 bits is rounded to is the integer that stands for it. -/
theorem text_ofNat (hpos : 0 < k) (hk : k ≤ 2 ^ 64) :
    ∃ n, Roundest n ∧ ofNat n = ofNat k ∧ (ofNat k).text = toString n := by
  obtain ⟨m, q, heq, hm, hm', hq, hlow, hhigh⟩ := exists_ofNat_eq hpos hk
  have hi : (interval m q).Proper := interval_proper (by omega) q
  have hmeets : ∀ n, ofNat n = ofNat k ↔ (interval m q).Meets n := by
    intro n
    rw [heq]
    exact ofNat_eq_iff_holds hm hm' hq
  obtain ⟨hstart, hend⟩ := interval_range hlow hhigh
  obtain ⟨d, e, hgrid, hn, hround, hprefers⟩ :=
    firstGrid_topPlace hi ((hmeets k).1 rfl) hstart hend
  have hofNat : ofNat (d * 10 ^ e) = ofNat k := (hmeets _).2 hn
  have hd : 0 < d := Nat.pos_of_mul_pos_right (hi.factor_pos hn)
  refine ⟨d * 10 ^ e, ⟨fun l finer hl => ?_, fun l v hl hdvd hv => ?_⟩, hofNat, ?_⟩
  · exact hround l finer ((hmeets l).1 (hl.trans hofNat))
  · rw [hofNat, heq] at hv
    obtain rfl := Option.some.inj hv
    rw [← prefers_interval_iff]
    exact hprefers l ((hmeets l).1 (hl.trans hofNat)) (hdvd e (Nat.dvd_mul_left _ d))
  · have hshortest : shortest plain.tie m q = (⟨d, e⟩ : Decimal).reduce 24 :=
      congrArg (Decimal.reduce · 24) hgrid
    rw [heq, text, Layout.write, if_neg (by omega), hshortest]
    exact (String.empty_append).trans (writePositional_reduce hd e 24)

theorem eq_of_toString_eq {n l : Nat} (h : toString n = toString l) : n = l := by
  rw [Nat.toString_eq_ofList_toDigits, Nat.toString_eq_ofList_toDigits, String.ofList_inj] at h
  rw [← Nat.ofDigitChars_ten_toDigits (n := n), h, Nat.ofDigitChars_ten_toDigits]

/-- An integer of 64 bits keeps its digits in double precision exactly when it is the one that stands for
the number that it is rounded to. -/
theorem text_ofNat_eq_iff (hpos : 0 < k) (hk : k ≤ 2 ^ 64) :
    (ofNat k).text = toString k ↔ Roundest k := by
  obtain ⟨n, hn, heq, htext⟩ := text_ofNat hpos hk
  obtain ⟨m, q, hfinite, -⟩ := exists_ofNat_eq hpos hk
  constructor
  · intro h
    rw [htext] at h
    rwa [← eq_of_toString_eq h]
  · intro h
    rw [htext, hn.unique h heq (show (ofNat n).value? = some _ by rw [heq, hfinite]; rfl)]

end Covenant.Double
