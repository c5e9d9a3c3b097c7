import Covenant.Text.Quoted

/-! TOML strings and keys. A string is basic, with escapes, or literal, without; either
kind may span lines between triple quotes, and a line break is then one newline however
it is written. -/
namespace Covenant.Toml

/-- Reads a thing at the start of a text and gives it with the rest. -/
abbrev Reader (α : Type) := List Char → Option (α × List Char)

/-- A character that a comment or a string may hold besides line breaks. -/
def isTextChar (c : Char) : Bool := c == '\t' || (0x20 ≤ c.toNat && c.toNat != 0x7F)

def isSpace (c : Char) : Bool := c == ' ' || c == '\t'

def skipSpaces (cs : List Char) : List Char := cs.dropWhile isSpace

/-! ### Strings -/

/-- The character of an escape of one letter. -/
def shortEscape? (c : Char) : Option Char :=
  match c with
  | 'b' => some '\x08'
  | 't' => some '\t'
  | 'n' => some '\n'
  | 'f' => some '\x0c'
  | 'r' => some '\r'
  | '"' => some '"'
  | '\\' => some '\\'
  | _ => none

def prepend (c : Char) : Option (List Char × List Char) → Option (List Char × List Char) :=
  Option.map fun p => (c :: p.1, p.2)

/-- The rest of a basic string of one line. -/
def readBasic : Reader (List Char)
  | '"' :: cs => some ([], cs)
  | '\\' :: 'u' :: a :: b :: c :: d :: cs => do
    prepend (← Text.charOfHex? [a, b, c, d]) (readBasic cs)
  | '\\' :: 'U' :: a :: b :: c :: d :: e :: f :: g :: h :: cs => do
    prepend (← Text.charOfHex? [a, b, c, d, e, f, g, h]) (readBasic cs)
  | '\\' :: e :: cs => do prepend (← shortEscape? e) (readBasic cs)
  | c :: cs => if isTextChar c && c != '\\' then prepend c (readBasic cs) else none
  | [] => none

/-- The rest of a literal string of one line. -/
def readLiteral : Reader (List Char)
  | '\'' :: cs => some ([], cs)
  | c :: cs => if isTextChar c then prepend c (readLiteral cs) else none
  | [] => none

/-- Whether a line ends after spaces only. -/
def endsLine (cs : List Char) : Bool :=
  match skipSpaces cs with
  | '\n' :: _ => true
  | '\r' :: '\n' :: _ => true
  | _ => false

/-- The rest of a basic string of several lines. When `folding`, the white space after a
backslash at the end of a line is being skipped. -/
def readBasicLines (folding : Bool) : Reader (List Char)
  | '"' :: '"' :: '"' :: '"' :: '"' :: cs => some (['"', '"'], cs)
  | '"' :: '"' :: '"' :: '"' :: cs => some (['"'], cs)
  | '"' :: '"' :: '"' :: cs => some ([], cs)
  | '\\' :: 'u' :: a :: b :: c :: d :: cs => do
    prepend (← Text.charOfHex? [a, b, c, d]) (readBasicLines false cs)
  | '\\' :: 'U' :: a :: b :: c :: d :: e :: f :: g :: h :: cs => do
    prepend (← Text.charOfHex? [a, b, c, d, e, f, g, h]) (readBasicLines false cs)
  | '\\' :: e :: cs =>
    match shortEscape? e with
    | some c => prepend c (readBasicLines false cs)
    | none => if endsLine (e :: cs) then readBasicLines true (e :: cs) else none
  | '\r' :: '\n' :: cs =>
    if folding then readBasicLines true cs else prepend '\n' (readBasicLines false cs)
  | '\n' :: cs => if folding then readBasicLines true cs else prepend '\n' (readBasicLines false cs)
  | c :: cs =>
    if folding && isSpace c then readBasicLines true cs
    else if isTextChar c && c != '\\' then prepend c (readBasicLines false cs)
    else none
  | [] => none

/-- The rest of a literal string of several lines. -/
def readLiteralLines : Reader (List Char)
  | '\'' :: '\'' :: '\'' :: '\'' :: '\'' :: cs => some (['\'', '\''], cs)
  | '\'' :: '\'' :: '\'' :: '\'' :: cs => some (['\''], cs)
  | '\'' :: '\'' :: '\'' :: cs => some ([], cs)
  | '\r' :: '\n' :: cs => prepend '\n' (readLiteralLines cs)
  | '\n' :: cs => prepend '\n' (readLiteralLines cs)
  | c :: cs => if isTextChar c then prepend c (readLiteralLines cs) else none
  | [] => none

/-- A line break right after the opening quotes is not part of the string. -/
def dropFirstBreak : List Char → List Char
  | '\r' :: '\n' :: cs => cs
  | '\n' :: cs => cs
  | cs => cs

/-- A string of any kind. -/
def readString : Reader (List Char)
  | '"' :: '"' :: '"' :: cs => readBasicLines false (dropFirstBreak cs)
  | '"' :: cs => readBasic cs
  | '\'' :: '\'' :: '\'' :: cs => readLiteralLines (dropFirstBreak cs)
  | '\'' :: cs => readLiteral cs
  | _ => none

def isBareKeyChar (c : Char) : Bool :=
  ('a' ≤ c && c ≤ 'z') || ('A' ≤ c && c ≤ 'Z') || ('0' ≤ c && c ≤ '9') || c == '_' || c == '-'

/-- A key of one part: bare, or a string of one line. -/
def readKeyPart : Reader String
  | '"' :: cs => (readBasic cs).map fun p => (String.ofList p.1, p.2)
  | '\'' :: cs => (readLiteral cs).map fun p => (String.ofList p.1, p.2)
  | cs =>
    let word := cs.takeWhile isBareKeyChar
    if word.isEmpty then none else some (String.ofList word, cs.dropWhile isBareKeyChar)

/-- The most parts of a dotted key, and the deepest nesting of values. -/
def depthLimit : Nat := 79

/-- A dotted key of at most `n` parts, with spaces around its dots skipped. -/
def readKey : Nat → Reader (List String)
  | 0, _ => none
  | n + 1, cs => do
    let (part, rest) ← readKeyPart (skipSpaces cs)
    match skipSpaces rest with
    | '.' :: rest =>
      let (parts, rest) ← readKey n rest
      return (part :: parts, rest)
    | rest => return ([part], rest)

end Covenant.Toml
