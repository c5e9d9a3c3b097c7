import Covenant.Number.Double
import Covenant.Text.Quoted

/-! What plain scalars mean: null, a boolean, an integer, a number with a fraction, or
else a text. -/
namespace Covenant.Yaml.Plain

def isNull (cs : List Char) : Bool :=
  ["~".toList, "null".toList, "Null".toList, "NULL".toList].contains cs

def bool? (cs : List Char) : Option Bool :=
  if ["true".toList, "True".toList, "TRUE".toList].contains cs then some true
  else if ["false".toList, "False".toList, "FALSE".toList].contains cs then some false
  else none

def digitIn? (radix : Nat) (c : Char) : Option Nat :=
  match Text.hexValue? c with
  | some d => if d < radix then some d else none
  | none => none

/-- The value of digits in a radix; at least one is needed. -/
def digits? (radix : Nat) (cs : List Char) : Option Nat :=
  if cs.isEmpty then none else cs.foldlM (fun n c => return radix * n + (← digitIn? radix c)) 0

/-- Decimal digits that are no number: more than one with a zero in front. -/
def isPadded (cs : List Char) : Bool :=
  let ds := match cs with
    | '-' :: ds => ds
    | '+' :: ds => ds
    | ds => ds
  ds.length > 1 && ds.head? == some '0' && ds.all Char.isDigit

/-- Digits after a mark for their radix. -/
def marked? : List Char → Option Nat
  | '0' :: 'x' :: cs => digits? 16 cs
  | '0' :: 'o' :: cs => digits? 8 cs
  | '0' :: 'b' :: cs => digits? 2 cs
  | _ => none

/-- An integer without a minus sign. -/
def unsigned? (cs : List Char) : Option Nat :=
  let body := match cs with
    | '+' :: ds => ds
    | ds => ds
  match marked? body with
  | some n => some n
  | none => if isPadded cs then none else digits? 10 body

/-- An integer with a minus sign. -/
def negative? : List Char → Option Int
  | '-' :: cs =>
    match marked? cs with
    | some n => some (-(n : Int))
    | none => if isPadded cs then none else (digits? 10 cs).map fun n => -(n : Int)
  | _ => none

/-- An integer of any size. -/
def int? (cs : List Char) : Option Int :=
  match unsigned? cs with
  | some n => some n
  | none => negative? cs

/-- A double precision number in decimal form. One that is too large has none. -/
def double? (cs : List Char) : Option Double :=
  let body := match cs with
    | '+' :: '+' :: _ => []
    | '+' :: '-' :: _ => []
    | '+' :: ds => ds
    | ds => ds
  if [".inf".toList, ".Inf".toList, ".INF".toList].contains body then some (.infinite false)
  else if ["-.inf".toList, "-.Inf".toList, "-.INF".toList].contains cs then some (.infinite true)
  else if [".nan".toList, ".NaN".toList, ".NAN".toList].contains cs then some .nan
  else
    let (negative, body) := match body with
      | '-' :: ds => (true, ds)
      | ds => (false, ds)
    match Decimal.read? body with
    | none => none
    | some d =>
      let d := Double.ofDecimal negative d
      if d.isFinite then some d else none

/-- A plain scalar with its meaning. -/
inductive Meaning where
  | null
  | bool (b : Bool)
  | int (n : Int)
  | double (d : Double)
  | text

/-- The meaning of a plain scalar. An integer that 64 bits cannot hold but 128 bits can
has none at all. -/
def meaning? (cs : List Char) : Option Meaning :=
  if cs.isEmpty || isNull cs then some .null
  else match bool? cs with
  | some b => some (.bool b)
  | none =>
    let wide := match int? cs with
      | some n => if Word.holds 128 n then some n else none
      | none => none
    match wide with
    | some n => if Word.holds 64 n then some (.int n) else none
    | none =>
      if isPadded cs then some .text
      else match double? cs with
        | some d => some (.double d)
        | none => some .text

end Covenant.Yaml.Plain
