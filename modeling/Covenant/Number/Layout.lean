import Covenant.Number.Shortest

/-! Written forms of double precision numbers. A layout says which numbers are written
positionally, how an exponent looks, and what stands for the values without digits. -/
namespace Covenant.Double

structure Layout where
  /-- Decimal places of the first digit that are written positionally. -/
  positional : Int → Bool
  /-- Whether a whole number keeps a fraction. -/
  keepsFraction : Bool
  tie : Tie
  /-- The texts of what is not a number and of the infinities. -/
  nanText : String
  infiniteText : Bool → String

/-- Plain text: every number is written positionally, a whole one without fraction. -/
def plain : Layout :=
  { positional := fun _ => true
    keepsFraction := false
    tie := .up
    nanText := "NaN"
    infiniteText := fun negative => if negative then "-inf" else "inf" }

/-- Records: positional from `1e-5` to below `1e16`, always with a fraction, otherwise with a
signed exponent; what has no digits is null. -/
def record : Layout :=
  { positional := fun top => -5 < top && top ≤ 16
    keepsFraction := true
    tie := .toEven
    nanText := "null"
    infiniteText := fun _ => "null" }

def digitText (n : Nat) : String := String.ofList (Nat.toDigits 10 n)

def zeros (n : Nat) : String := String.ofList (List.replicate n '0')

/-- Positional notation. -/
def Layout.writePositional (l : Layout) (d : Decimal) : String :=
  let ds := Nat.toDigits 10 d.digits
  if 0 ≤ d.exponent then
    String.ofList ds ++ zeros d.exponent.toNat ++ (if l.keepsFraction then ".0" else "")
  else
    let places := (-d.exponent).toNat
    if places < ds.length then
      String.ofList (ds.take (ds.length - places)) ++ "." ++
        String.ofList (ds.drop (ds.length - places))
    else "0." ++ zeros (places - ds.length) ++ String.ofList ds

/-- One digit, a fraction if there are more digits, and an exponent with its sign. -/
def writeScientific (d : Decimal) : String :=
  let ds := Nat.toDigits 10 d.digits
  let exponent := d.exponent + (ds.length - 1 : Nat)
  String.ofList (ds.take 1) ++
    (if ds.length = 1 then "" else "." ++ String.ofList (ds.drop 1)) ++
    (if exponent < 0 then "e-" else "e+") ++ digitText exponent.natAbs

/-- The text of a number. -/
def Layout.write (l : Layout) : Double → String
  | .nan => l.nanText
  | .infinite negative => l.infiniteText negative
  | .finite negative m q =>
    let sign := if negative then "-" else ""
    if m = 0 then sign ++ (if l.keepsFraction then "0.0" else "0")
    else
      let d := shortest l.tie m q
      let top := d.exponent + (Nat.toDigits 10 d.digits).length
      sign ++ (if l.positional top then l.writePositional d else writeScientific d)

/-- The number in plain text. -/
def text (d : Double) : String := plain.write d

end Covenant.Double
