import Covenant.Template.Segment
import Covenant.Text.Lines

/-! A fault drawn with the source lines it is on. Marked characters of one line are
underlined, with an arm from the middle of the mark to the message; a mark of several lines
is a bracket from its first line to its last, with a gap for the lines between them. -/
namespace Covenant.Template

/-- The lines of a source, each with what ends it. -/
def sourceLines : List Char → List (List Char)
  | [] => []
  | '\r' :: '\n' :: cs => ['\r', '\n'] :: sourceLines cs
  | c :: cs =>
    if Text.isLineEnd c then [c] :: sourceLines cs
    else match sourceLines cs with
      | l :: ls => (c :: l) :: ls
      | [] => [[c]]

/-- A line of a source: its number from one, its start and its text. -/
structure SourceLine where
  number : Nat
  start : Nat
  text : List Char

/-- The line that holds a position. The end of the source belongs to the last line. -/
def findLine (pos : Nat) (number start : Nat) : List (List Char) → SourceLine
  | [] => ⟨number, start, []⟩
  | [l] => ⟨number, start, l⟩
  | l :: m :: ls =>
    if pos < start + l.length then ⟨number, start, l⟩
    else findLine pos (number + 1) (start + l.length) (m :: ls)

/-- Columns a character takes; a tab reaches the next multiple of four. -/
def columns (index : Nat) (c : Char) : Nat := if c = '\t' then 4 - index % 4 else 1

/-- A character as drawn. -/
def glyph (c : Char) : Char := if Text.isBlank c then ' ' else c

def repeated (n : Nat) (c : Char) : List Char := List.replicate n c

/-- The line itself, tabs widened, without white space at its end. -/
def drawLine (text : List Char) : List Char :=
  (text.zipIdx.map fun (c, i) => repeated (columns i c) (glyph c)).flatten

/-- A row under the line: for each character up to `width`, the sign of its first
column and that of the others. -/
def drawRow (text : List Char) (width : Nat) (sign : Nat → Char × Char) : List Char :=
  ((List.range width).map fun i =>
    let (first, others) := sign i
    let n := match text[i]? with
      | some c => columns i c
      | none => 1
    first :: repeated (n - 1) others).flatten

/-- A source line after its number, which ends in the column `width`. -/
def numberedRow (width : Nat) (line : SourceLine) (bracket : String) : String :=
  let number := toString line.number
  String.ofList (repeated (width + 1 - number.length) ' ') ++ number ++ " │ " ++ bracket ++
    String.ofList (drawLine (Text.trimEnd line.text)) ++ "\n"

/-- The rows of a mark on one line, `first` and `last` being its ends in the line. -/
def drawMark (width : Nat) (line : SourceLine) (first last : Nat) (message : String) : String :=
  let margin := String.ofList (repeated (width + 2) ' ') ++ "│ "
  let middle := (first + last) / 2
  let row := drawRow (Text.trimEnd line.text) (last + 2)
  let underline := row fun i =>
    if i = middle then (if first < last then ('┬', '─') else ('│', ' '))
    else if first ≤ i && i < last then ('─', '─') else (' ', ' ')
  let arm := row fun i =>
    if i = middle then ('╰', '─') else if middle < i then ('─', '─') else (' ', ' ')
  numberedRow width line "" ++
  margin ++ String.ofList underline ++ "\n" ++
  margin ++ String.ofList arm ++ " " ++ message ++ "\n"

/-- The rows of a mark that starts and ends on different lines. -/
def drawBracket (width : Nat) (first last : SourceLine) (message : String) : String :=
  let margin := String.ofList (repeated (width + 2) ' ')
  let row (c : Char) := drawRow (Text.trimEnd last.text) (last.text.length + 2) fun _ => (c, c)
  numberedRow width first "╭─▶ " ++
  (if first.number + 1 < last.number then margin ++ "┆ ┆   \n" else "") ++
  numberedRow width last "├─▶ " ++
  margin ++ "│ │   " ++ String.ofList (row ' ') ++ "\n" ++
  margin ++ "│ ╰───" ++ String.ofList (row '─') ++ " " ++ message ++ "\n"

/-- The drawn report of a fault, `file` naming the source. Positions count characters. -/
def Fault.report (f : Fault) (source : List Char) (file : String) : String :=
  let span := f.span
  let lines := sourceLines source
  let first := findLine span.start 1 0 lines
  let last := findLine (max span.start (span.stop - 1)) 1 0 lines
  let width := (toString last.number).length
  let margin := String.ofList (repeated (width + 2) ' ')
  let message := match f.expected with
    | [] => f.message
    | es => f.message ++ "\nExpected: " ++ ", ".intercalate es
  "Error: " ++ f.message ++ "\n" ++
  margin ++ "╭─[" ++ file ++ ":" ++ toString first.number ++ ":" ++
    toString (span.start - first.start + 1) ++ "]\n" ++
  margin ++ "│\n" ++
  (if first.number = last.number then
    drawMark width first (span.start - first.start) (span.stop - first.start) message
  else drawBracket width first last message) ++
  String.ofList (repeated (width + 2) '─') ++ "╯\n"

end Covenant.Template
