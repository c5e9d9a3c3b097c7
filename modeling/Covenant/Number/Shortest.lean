import Covenant.Number.Double

/-! Shortest decimal digits of a double precision number: of all decimals that round
to it, those with the fewest digits, and of these the nearest. -/
namespace Covenant.Double

/-- Which neighbour is taken when the number lies midway between two decimals. -/
inductive Tie where
  | up
  | toEven
  deriving DecidableEq, Repr

/-- The numbers that round to a given one, as the ends of an interval over `den`. -/
structure Interval where
  value : Nat
  low : Nat
  high : Nat
  den : Nat
  closed : Bool

/-- The interval of a positive number. Below a power of two the spacing is half. -/
def interval (m q : Nat) : Interval :=
  { value := 4 * m * Nat.pow 2 q
    low := (if m = Nat.pow 2 52 && q ≠ 0 then 4 * m - 1 else 4 * m - 2) * Nat.pow 2 q
    high := (4 * m + 2) * Nat.pow 2 q
    den := 4 * Nat.pow 2 place
    closed := m % 2 = 0 }

/-- Whether `num` over the denominator of the interval lies in it. -/
def Interval.holds (i : Interval) (num : Nat) : Bool :=
  if i.closed then i.low ≤ num && num ≤ i.high else i.low < num && num < i.high

/-- The power of ten, as a fraction. -/
def tenTo (e : Int) : Nat × Nat :=
  if 0 ≤ e then (Nat.pow 10 e.toNat, 1) else (1, Nat.pow 10 (-e).toNat)

/-- The decimal of the interval on the grid of step `10 ^ e` that is nearest to its
value, if one of the two neighbours of the value lies in the interval. -/
def onGrid (tie : Tie) (i : Interval) (e : Int) : Option Nat :=
  let (up, down) := tenTo e
  -- everything over `i.den * down`
  let value := i.value * down
  let step := i.den * up
  let wide : Interval := { i with value := value, low := i.low * down, high := i.high * down }
  let f := value / step
  let below := wide.holds (f * step) && f != 0
  let above := wide.holds ((f + 1) * step)
  let r := 2 * (value % step)
  if below && above then
    some (if r < step || (r == step && tie == .toEven && f % 2 == 0) then f else f + 1)
  else if below then some f
  else if above then some (f + 1)
  else none

/-- The first of the exponents `e`, `e - 1`, … whose grid meets the interval. -/
def firstGrid (tie : Tie) (i : Interval) : Nat → Int → Decimal
  | 0, e => ⟨i.value / i.den, e⟩
  | n + 1, e =>
    match onGrid tie i e with
    | some d => ⟨d, e⟩
    | none => firstGrid tie i n (e - 1)

/-- The decimal place of the first digit is at most this: the number of digits of the
integer part, or less. -/
def topPlace (i : Interval) : Int :=
  if i.den ≤ i.value then (Nat.toDigits 10 (i.value / i.den)).length
  else 1 - (Nat.toDigits 10 (i.den / i.value)).length + 1

/-- The shortest digits of the positive number `m · 2 ^ q / 2 ^ 1074`. -/
def shortest (tie : Tie) (m q : Nat) : Decimal :=
  let i := interval m q
  (firstGrid tie i 24 (topPlace i)).reduce 24

end Covenant.Double
