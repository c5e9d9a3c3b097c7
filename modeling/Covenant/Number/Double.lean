import Covenant.Number.Decimal

/-! Double precision numbers as exact values. A finite number is a sign and a
magnitude `m · 2 ^ q / 2 ^ 1074`, so that two of them are compared as integers; every
real number is rounded to the nearest one, a tie going to the even mantissa. And the integers
that fit a word of so many bits. -/
namespace Covenant

/-- A double precision number. In a finite one `m < 2 ^ 53`, `q ≤ 2045`, and `q = 0`
when `m < 2 ^ 52`. -/
inductive Double where
  | finite (negative : Bool) (m q : Nat)
  | infinite (negative : Bool)
  | nan
  deriving DecidableEq, Repr

namespace Double

/-- The binary place of the last digit of the smallest positive number. -/
def place : Nat := 1074

/-- The largest binary exponent of a finite number, counted from `place`. -/
def maxExponent : Nat := 2045

def zero : Double := .finite false 0 0

/-- The quotient rounded to an integer, ties to even. -/
def roundDiv (num den : Nat) : Nat :=
  let d := num / den
  let r := num % den
  if 2 * r < den || (2 * r == den && d % 2 == 0) then d else d + 1

/-- The number nearest to `± num / den`. -/
def ofRatio (negative : Bool) (num den : Nat) : Double :=
  let scaled := num * Nat.pow 2 place
  let q := (Nat.log2 (scaled / den)) - 52
  let m := roundDiv scaled (den * Nat.pow 2 q)
  let (m, q) := if m = Nat.pow 2 53 then (Nat.pow 2 52, q + 1) else (m, q)
  if q ≤ maxExponent then .finite negative m q else .infinite negative

def ofNat (n : Nat) : Double := ofRatio false n 1

/-- The number nearest to an integer. -/
def ofInt (n : Int) : Double := ofRatio (n < 0) n.natAbs 1

/-- The number nearest to a decimal with a sign. Exponents far outside the range are settled
without computing the power. -/
def ofDecimal (negative : Bool) (d : Decimal) : Double :=
  if d.digits = 0 then .finite negative 0 0
  else
    let top := d.exponent + (Nat.log2 d.digits * 3 / 10 : Nat)
    if top > 400 then .infinite negative
    else if d.exponent + (Nat.log2 d.digits / 3 + 1 : Nat) < -400 then .finite negative 0 0
    else if 0 ≤ d.exponent then ofRatio negative (d.digits * Nat.pow 10 d.exponent.toNat) 1
    else ofRatio negative d.digits (Nat.pow 10 (-d.exponent).toNat)

def isFinite : Double → Bool
  | .finite .. => true
  | _ => false

/-- The value of a finite number in units of `2 ^ -place`. -/
def scaled (negative : Bool) (m q : Nat) : Int :=
  if negative then -(m * Nat.pow 2 q : Nat) else (m * Nat.pow 2 q : Nat)

/-- The order of numbers; nothing is below or above what is not a number, and the two
zeros are equal. -/
def lt : Double → Double → Bool
  | .nan, _ | _, .nan => false
  | .infinite a, .infinite b => a && !b
  | .infinite a, .finite .. => a
  | .finite .., .infinite b => !b
  | .finite a m q, .finite b n p => scaled a m q < scaled b n p

/-- The reflexive order: nothing is comparable to what is not a number. -/
def le (x y : Double) : Bool :=
  match x, y with
  | .nan, _ | _, .nan => false
  | x, y => !y.lt x

/-- The value as a natural number, if it is one. -/
def toNat? : Double → Option Nat
  | .finite negative m q =>
    let v := m * Nat.pow 2 q
    if v % Nat.pow 2 place == 0 && (v == 0 || !negative) then some (v / Nat.pow 2 place) else none
  | _ => none

/-- Numbers that count as the same value: the two zeros are, and so is what is not a
number with itself. -/
def same : Double → Double → Bool
  | .finite a m q, .finite b n p => (m == n && q == p && a == b) || (m == 0 && n == 0)
  | x, y => x == y

end Double

/-! ### Words -/

namespace Word

/-- How many values a word has. -/
def count (bits : Nat) : Nat := Nat.pow 2 bits

/-- The integers that a word holds, read with a sign or without one. -/
def holds (bits : Nat) (n : Int) : Bool := -(count (bits - 1) : Int) ≤ n && n < (count bits : Int)

end Word
end Covenant
