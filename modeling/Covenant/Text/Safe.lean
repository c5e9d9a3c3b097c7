import Covenant.Text.Blank

/-! Safe text: user text that may stand in a line comment or between quotes in any
language that is generated. It has no quote, no backslash and no control character, so
that it stays on its line and inside its quotes; it neither ends a block comment nor
starts a slot marker. -/
namespace Covenant.Text

/-- The character that stands for another in safe text. -/
def safeChar (c : Char) : Char :=
  if c == '"' then '\x27'
  else if c == '\\' then '/'
  else if isControl c then ' '
  else c

/-- Two characters that may not meet: a pair of opening braces starts a marker, and a
star with a slash ends a comment. -/
def mustPart (c d : Char) : Bool := (c == '{' && d == '{') || (c == '*' && d == '/')

/-- Puts a blank between characters that may not meet; `last` is the character before
the text. -/
def partFrom (last : Char) : List Char → List Char
  | [] => []
  | c :: cs => if mustPart last c then ' ' :: c :: partFrom c cs else c :: partFrom c cs

def parted : List Char → List Char
  | [] => []
  | c :: cs => c :: partFrom c cs

def safeList (cs : List Char) : List Char := trim (parted (cs.map safeChar))

/-- The text made safe. -/
def safe (s : String) : String := String.ofList (safeList s.toList)

/-- A list of texts in brackets, each made safe and quoted. -/
def quotedList (ss : List String) : String :=
  "[" ++ ", ".intercalate (ss.map fun s => "\"" ++ safe s ++ "\"") ++ "]"

end Covenant.Text
