import Covenant.Toml.Number
import Covenant.Toml.Strings

/-! Dates and times. A moment is read into its standard form: a `T` between date and time,
at most nine digits of a second without zeros at their end, and capital `Z` or a signed
offset, zero having no minus sign. -/
namespace Covenant.Toml.Moment

/-- Two digits with a value in a range. -/
def readTwo (low high : Nat) : Reader (List Char)
  | a :: b :: cs =>
    let value := Number.valueIn 10 [a, b]
    if a.isDigit && b.isDigit && low ≤ value && value ≤ high then some ([a, b], cs) else none
  | _ => none

def isLeap (year : Nat) : Bool := (year % 4 == 0 && year % 100 != 0) || year % 400 == 0

def daysIn (year month : Nat) : Nat :=
  if month = 2 then (if isLeap year then 29 else 28)
  else if month = 4 || month = 6 || month = 9 || month = 11 then 30
  else 31

/-- A calendar day. -/
def readDate : Reader (List Char)
  | a :: b :: c :: d :: '-' :: cs => do
    if !([a, b, c, d].all Char.isDigit) then none
    let (month, cs) ← readTwo 1 12 cs
    let '-' :: cs := cs | none
    let (day, cs) ← readTwo 1 (daysIn (Number.valueIn 10 [a, b, c, d]) (Number.valueIn 10 month)) cs
    return ([a, b, c, d] ++ '-' :: month ++ '-' :: day, cs)
  | _ => none

/-- The standard form of a fraction of a second. -/
def fraction (ds : List Char) : List Char :=
  let ds := ((ds.take 9).reverse.dropWhile (· == '0')).reverse
  if ds.isEmpty then [] else '.' :: ds

/-- A time of day. -/
def readTime : Reader (List Char) := fun cs => do
  let (hour, cs) ← readTwo 0 23 cs
  let ':' :: cs := cs | none
  let (minute, cs) ← readTwo 0 59 cs
  let ':' :: cs := cs | none
  let (second, cs) ← readTwo 0 60 cs
  let clock := hour ++ ':' :: minute ++ ':' :: second
  match cs with
  | '.' :: cs =>
    let ds := cs.takeWhile Char.isDigit
    if ds.isEmpty then none else return (clock ++ fraction ds, cs.dropWhile Char.isDigit)
  | cs => return (clock, cs)

/-- Nothing, or an offset from universal time. -/
def offset? : List Char → Option (List Char)
  | [] => some []
  | ['Z'] => some ['Z']
  | ['z'] => some ['Z']
  | sign :: cs => do
    if sign != '+' && sign != '-' then none
    let (hour, cs) ← readTwo 0 23 cs
    let ':' :: cs := cs | none
    let (minute, cs) ← readTwo 0 59 cs
    if !cs.isEmpty then none
    let offset := hour ++ ':' :: minute
    return (if offset.all fun c => c == '0' || c == ':' then '+' else sign) :: offset

/-- The standard form of a time, of a date, or of a date with a time. -/
def standard? (cs : List Char) : Option (List Char) :=
  match readTime cs with
  | some (time, []) => some time
  | _ => do
    let (date, cs) ← readDate cs
    match cs with
    | [] => return date
    | c :: cs =>
      if c != 'T' && c != 't' && c != ' ' then none
      let (time, cs) ← readTime cs
      return date ++ 'T' :: time ++ (← offset? cs)

end Covenant.Toml.Moment
