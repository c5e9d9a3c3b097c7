/-! Decimals: digits and a power of ten, and how they are written with a point and an
exponent. -/
namespace Covenant

/-- `digits · 10 ^ exponent`. -/
structure Decimal where
  digits : Nat
  exponent : Int
  deriving DecidableEq, Repr

namespace Decimal

/-- Trailing zeros moved into the exponent. -/
def reduce (d : Decimal) : Nat → Decimal
  | 0 => d
  | n + 1 =>
    if d.digits ≠ 0 && d.digits % 10 = 0 then reduce ⟨d.digits / 10, d.exponent + 1⟩ n else d

/-- The value of digits, of which there is at least one. -/
def digits? (cs : List Char) : Option Nat :=
  if !cs.isEmpty && cs.all Char.isDigit then
    some (cs.foldl (fun n c => 10 * n + (c.toNat - 48)) 0)
  else none

/-- The exponent written after the digits: nothing, or its letter and digits that may have
a sign. -/
def exponent? : List Char → Option Int
  | [] => some 0
  | x :: cs =>
    if x != 'e' && x != 'E' then none
    else match cs with
      | '-' :: ds => (digits? ds).map fun k => -(k : Int)
      | '+' :: ds => (digits? ds).map fun k => (k : Int)
      | ds => (digits? ds).map fun k => (k : Int)

/-- Reads digits that may have a point among them, before or after them, and perhaps an
exponent. -/
def read? (cs : List Char) : Option Decimal := do
  let whole := cs.takeWhile Char.isDigit
  let (part, rest) := match cs.dropWhile Char.isDigit with
    | '.' :: rest => (rest.takeWhile Char.isDigit, rest.dropWhile Char.isDigit)
    | rest => ([], rest)
  return ⟨← digits? (whole ++ part), (← exponent? rest) - part.length⟩

end Decimal
end Covenant
