import Covenant.Text.CaseTable

/-! Lower-casing of a text. Every character is mapped by itself, except the capital
sigma, which has a form of its own at the end of a word, and the capital I with a
dot, whose lower-case form has two characters. -/
namespace Covenant.Text

/-- Membership of a code point in a list of ranges, ends included. -/
def inRanges (ranges : List (Nat × Nat)) (n : Nat) : Bool :=
  ranges.any fun r => r.1 ≤ n && n ≤ r.2

def CaseRun.holds (r : CaseRun) (n : Nat) : Bool :=
  r.first ≤ n && n ≤ r.last && (n - r.first) % r.step == 0

def CaseRun.apply (r : CaseRun) (n : Nat) : Nat := (n + r.shift).toNat

/-- ASCII capitals. -/
def isCapital (c : Char) : Bool := 'A' ≤ c && c ≤ 'Z'

/-- The lower-case form of a single character that does not look at its neighbours. -/
def lowerChar (c : Char) : List Char :=
  if c.toNat < 0x80 then
    [if isCapital c then Char.ofNat (c.toNat + 32) else c]
  else if c.toNat = 0x130 then ['i', Char.ofNat 0x307]
  else match caseRuns.find? (·.holds c.toNat) with
    | some r => [Char.ofNat (r.apply c.toNat)]
    | none => [c]

def isCased (c : Char) : Bool :=
  if c.toNat < 0x80 then c.isAlpha else inRanges casedRanges c.toNat

def isCaseIgnorable (c : Char) : Bool := inRanges caseIgnorableRanges c.toNat

/-- The first character that counts for casing is a cased one. -/
def startsCased (cs : List Char) : Bool :=
  match cs.dropWhile isCaseIgnorable with
  | c :: _ => isCased c
  | [] => false

/-- The form of a capital sigma: final after a cased letter that no other follows. -/
def lowerSigma (before after : List Char) : Char :=
  Char.ofNat (if startsCased before && !startsCased after then 0x3C2 else 0x3C3)

/-- Lower-cases the text, `before` being what stands to its left, nearest first. -/
def lowerFrom (before : List Char) : List Char → List Char
  | [] => []
  | c :: rest =>
    (if c.toNat = 0x3A3 then [lowerSigma before rest] else lowerChar c) ++
      lowerFrom (c :: before) rest

/-- The text in lower case. -/
def lower (s : String) : String := String.ofList (lowerFrom [] s.toList)

end Covenant.Text
