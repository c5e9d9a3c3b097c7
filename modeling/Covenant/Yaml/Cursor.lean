/-! Positions in a YAML source. A cursor knows the rest of the source and how many octets,
lines and columns lie behind it. Octets are those of UTF-8; columns count characters. -/
namespace Covenant.Yaml

/-- A line break. -/
def isBreak (c : Char) : Bool :=
  c == '\n' || c == '\r' || c.toNat == 0x85 || c.toNat == 0x2028 || c.toNat == 0x2029

def isBlank (c : Char) : Bool := c == ' ' || c == '\t'

/-- A blank, a line break, or the end of the source. -/
def endsWord : Option Char → Bool
  | none => true
  | some c => isBlank c || isBreak c

/-- A line break or the end of the source. -/
def endsLine : Option Char → Bool
  | none => true
  | some c => isBreak c

/-- A character of names of anchors, handles and directives. -/
def isNameChar (c : Char) : Bool :=
  ('a' ≤ c && c ≤ 'z') || ('A' ≤ c && c ≤ 'Z') || ('0' ≤ c && c ≤ '9') || c == '_' || c == '-'

/-- A character that may occur in a source at all. -/
def isSourceChar (c : Char) : Bool :=
  let n := c.toNat
  n == 9 || n == 10 || n == 13 || (0x20 ≤ n && n ≤ 0x7E) || n == 0x85 ||
    (0xA0 ≤ n && n ≤ 0xFFFD) || 0x10000 ≤ n

structure Cursor where
  rest : List Char
  index : Nat := 0
  line : Nat := 0
  column : Nat := 0

namespace Cursor

def peek (c : Cursor) : Option Char := c.rest.head?

/-- The character `k` places ahead. -/
def ahead (c : Cursor) (k : Nat) : Option Char := c.rest[k]?

/-- Whether the next character is the given one. -/
def sees (c : Cursor) (x : Char) : Bool := c.peek == some x

/-- Past the next character of the line. -/
def skip (c : Cursor) : Cursor :=
  match c.rest with
  | x :: rest => ⟨rest, c.index + x.utf8Size, c.line, c.column + 1⟩
  | [] => c

/-- Past `k` characters of the line. -/
def skips (c : Cursor) : Nat → Cursor
  | 0 => c
  | k + 1 => c.skip.skips k

/-- Past a line break. -/
def skipLine (c : Cursor) : Cursor :=
  match c.rest with
  | '\r' :: '\n' :: rest => ⟨rest, c.index + 2, c.line + 1, 0⟩
  | x :: rest => ⟨rest, c.index + x.utf8Size, c.line + 1, 0⟩
  | [] => c

/-- A line break as it counts in a scalar, and the cursor past it. Only the separators
for lines and paragraphs keep their form; at the end of the source there is none. -/
def readLine (c : Cursor) : List Char × Cursor :=
  match c.rest with
  | [] => ([], c)
  | x :: _ =>
    ([if x.toNat == 0x2028 || x.toNat == 0x2029 then x else '\n'], c.skipLine)

/-- Past all leading characters of a class, which has no line breaks in it. -/
def skipWhile (p : Char → Bool) (c : Cursor) : Cursor :=
  c.skips (c.rest.takeWhile p).length

/-- The leading characters of a class, and the cursor past them. -/
def takeWhile (p : Char → Bool) (c : Cursor) : List Char × Cursor :=
  let word := c.rest.takeWhile p
  (word, c.skips word.length)

/-- Past the rest of a comment, if one starts here. -/
def skipComment (c : Cursor) : Cursor :=
  if c.sees '#' then c.skipWhile (fun x => !isBreak x) else c

/-- Three equal marks and then the end of a word at the start of a line. -/
def atMark (c : Cursor) (x : Char) : Bool :=
  c.column == 0 && c.ahead 0 == some x && c.ahead 1 == some x && c.ahead 2 == some x &&
    endsWord (c.ahead 3)

/-- The start or the end of a document. -/
def atDocumentMark (c : Cursor) : Bool := c.atMark '-' || c.atMark '.'

end Cursor
end Covenant.Yaml
