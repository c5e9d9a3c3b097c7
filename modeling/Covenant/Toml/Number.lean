import Covenant.Number.Double
import Covenant.Text.Quoted

/-! Forms of TOML numbers and booleans. -/
namespace Covenant.Toml.Number

/-- Digits with single underscores between them; `after` tells whether a digit stands
just before. -/
def isGrouped (digit : Char → Bool) (after : Bool) : List Char → Bool
  | [] => after
  | c :: cs =>
    if digit c then isGrouped digit true cs
    else c == '_' && after && isGrouped digit false cs

/-- A text without the underscores between its digits. -/
def ungrouped (cs : List Char) : List Char := cs.filter (· != '_')

def dropSign : List Char → List Char
  | '+' :: cs => cs
  | '-' :: cs => cs
  | cs => cs

/-- An unsigned decimal integer: no leading zeros. -/
def isUnsigned : List Char → Bool
  | ['0'] => true
  | '0' :: _ => false
  | cs => isGrouped Char.isDigit false cs

/-- The value of grouped digits. -/
def valueIn (radix : Nat) (cs : List Char) : Nat :=
  (ungrouped cs).foldl (fun n c => radix * n + (Text.hexValue? c).getD 0) 0

/-- A digit of a radix up to sixteen. -/
def isDigitIn (radix : Nat) (c : Char) : Bool := (Text.hexValue? c).any (· < radix)

/-- Grouped digits in a radix whose value is in the range of integers. -/
def isShort (radix : Nat) (cs : List Char) : Bool :=
  isGrouped (isDigitIn radix) false cs && valueIn radix cs < Word.count 63

/-- Integers are those of 64 bits with a sign. -/
def isInteger : List Char → Bool
  | '0' :: 'x' :: cs => isShort 16 cs
  | '0' :: 'o' :: cs => isShort 8 cs
  | '0' :: 'b' :: cs => isShort 2 cs
  | '-' :: cs => isUnsigned cs && valueIn 10 cs ≤ Word.count 63
  | cs => isUnsigned (dropSign cs) && valueIn 10 (dropSign cs) < Word.count 63

/-- An exponent part. -/
def isExponent : List Char → Bool
  | 'e' :: cs => isGrouped Char.isDigit false (dropSign cs)
  | 'E' :: cs => isGrouped Char.isDigit false (dropSign cs)
  | _ => false

/-- A decimal number with a fraction, an exponent or both, after its sign. -/
def isFraction (cs : List Char) : Bool :=
  let isDigitOrGap (c : Char) : Bool := c.isDigit || c == '_'
  isUnsigned (cs.takeWhile isDigitOrGap) && match cs.dropWhile isDigitOrGap with
    | '.' :: rest =>
      let exponent := rest.dropWhile isDigitOrGap
      isGrouped Char.isDigit false (rest.takeWhile isDigitOrGap) &&
        (exponent.isEmpty || isExponent exponent)
    | rest => isExponent rest

/-- Whether a number without a minus sign is too large for double precision. -/
def isHuge (cs : List Char) : Bool :=
  ((Decimal.read? (ungrouped (dropSign cs))).map (Double.ofDecimal false)) == some (.infinite false)

/-- A number of double precision. One that is too large is refused, while one that is too far
below zero counts as negative infinity. -/
def isFloat (cs : List Char) : Bool :=
  dropSign cs == "inf".toList || dropSign cs == "nan".toList ||
    (isFraction (dropSign cs) && (cs.head? == some '-' || !isHuge cs))

/-- A number or a boolean. -/
def isPlain (cs : List Char) : Bool :=
  cs == "true".toList || cs == "false".toList || isInteger cs || isFloat cs

end Covenant.Toml.Number
