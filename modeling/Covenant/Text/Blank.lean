/-! White space, in the sense of the Unicode property `White_Space`, and the control
characters. Trimming removes white space at the ends of a text and nothing else. -/
namespace Covenant.Text

/-- White space: the property `White_Space`. -/
def isBlank (c : Char) : Bool :=
  let n := c.toNat
  (9 ≤ n && n ≤ 13) || n == 0x20 || n == 0x85 || n == 0xA0 || n == 0x1680 ||
    (0x2000 ≤ n && n ≤ 0x200A) || n == 0x2028 || n == 0x2029 || n == 0x202F ||
    n == 0x205F || n == 0x3000

/-- Control characters: the general category `Cc`. -/
def isControl (c : Char) : Bool :=
  c.toNat ≤ 0x1F || (0x7F ≤ c.toNat && c.toNat ≤ 0x9F)

/-- The blanks that indent or end a line of a template: spaces and tabs. -/
def isSpaceOrTab (c : Char) : Bool := c == ' ' || c == '\t'

def trimStart (cs : List Char) : List Char := cs.dropWhile isBlank

def trimEnd (cs : List Char) : List Char := (cs.reverse.dropWhile isBlank).reverse

def trim (cs : List Char) : List Char := trimEnd (trimStart cs)

/-- The text without the white space at either end. -/
def trimmed (s : String) : String := String.ofList (trim s.toList)

/-- Nothing but white space. -/
def allBlank (s : String) : Bool := s.toList.all isBlank

@[simp] theorem trim_nil : trim [] = [] := rfl

theorem trimStart_of_head {c : Char} {cs : List Char} (h : isBlank c = false) :
    trimStart (c :: cs) = c :: cs := by
  simp [trimStart, h]

theorem trimEnd_of_last {c : Char} {cs : List Char} (h : isBlank c = false) :
    trimEnd (cs ++ [c]) = cs ++ [c] := by
  simp [trimEnd, h]

end Covenant.Text
