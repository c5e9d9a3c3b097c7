import Covenant.Template.Segment

/-! Standalone blocks. A block whose markers are alone on their lines takes up whole
lines, so that rendering it leaves no blank marker lines behind: the marker lines are
cut out of the texts around and inside it, and the indentation is kept with it. Blocks
are settled from left to right, each one looking at the texts as the blocks before it
have left them. -/
namespace Covenant.Template

def isSpacing (cs : List Char) : Bool := cs.all Text.isSpaceOrTab

/-- The part after the last newline, or the whole text. -/
def lastLine (cs : List Char) : List Char := (cs.reverse.takeWhile (· != '\n')).reverse

/-- The part up to and with the last newline. -/
def beforeLastLine (cs : List Char) : List Char := (cs.reverse.dropWhile (· != '\n')).reverse

def hasNewline (cs : List Char) : Bool := cs.any (· == '\n')

/-- The text after a first line that holds only spaces and tabs. -/
def dropBlankLine (cs : List Char) : Option (List Char) :=
  match cs.dropWhile Text.isSpaceOrTab with
  | '\n' :: rest => some rest
  | _ => none

/-- The indentation of an opening marker that starts its line, read off the segments
before it, nearest first. -/
def indentAfter : List Segment → Option (List Char)
  | [] => some []
  | .inline (.text cs) :: before =>
    if hasNewline cs then
      if isSpacing (lastLine cs) then some (lastLine cs) else none
    else if before.isEmpty && isSpacing cs then some cs
    else none
  | _ => none

/-- Whether a closing marker ends its line, judged by the next segment. -/
def endsLine : List Segment → Bool
  | [] => true
  | .inline (.text cs) :: _ => isSpacing cs || (dropBlankLine cs).isSome
  | _ => false

/-- A content whose last line holds only spacing, without that spacing. -/
def cutLastLine : List Inline → Option (List Inline)
  | [] => none
  | [.text cs] =>
    if hasNewline cs && isSpacing (lastLine cs) then some [.text (beforeLastLine cs)] else none
  | [.slot _] => none
  | i :: j :: rest => (cutLastLine (j :: rest)).map (i :: ·)

/-- A content whose first line holds only spacing, without that line. -/
def cutFirstLine : List Inline → Option (List Inline)
  | .text cs :: rest => (dropBlankLine cs).map fun cs => .text cs :: rest
  | _ => none

/-- The content of a block between its marker lines. -/
def innerLines (body : List Inline) : Option (List Inline) := do
  let body ← cutLastLine body
  let body ← cutFirstLine body
  return body.filter fun i => !i.isEmpty

/-- The standalone form of a block between the given neighbours. -/
def Block.standalone? (before : List Segment) (b : Block) (after : List Segment) : Option Block := do
  let indent ← indentAfter before
  if endsLine after then
    let body ← innerLines b.body
    return { b with indent := indent, standalone := true, body := body }
  else none

/-- The segments before a standalone block, without its indentation. -/
def cutIndent (indent : List Char) : List Segment → List Segment
  | .inline (.text cs) :: before => .inline (.text (cs.take (cs.length - indent.length))) :: before
  | before => before

/-- A text after a standalone block, without the rest of the marker's line. -/
def cutMarkerLine (cs : List Char) : List Char := (dropBlankLine cs).getD []

/-- Settles the blocks of a list of segments. The segments already settled come in
reverse; `cut` says that the last of them is a standalone block. -/
def settle (before : List Segment) (cut : Bool) : List Segment → List Segment
  | [] => before.reverse
  | .block b :: after =>
    match b.standalone? before after with
    | some b => settle (.block b :: cutIndent b.indent before) true after
    | none => settle (.block b :: before) false after
  | .inline (.text cs) :: after =>
    settle (.inline (.text (if cut then cutMarkerLine cs else cs)) :: before) false after
  | .inline (.slot name) :: after => settle (.inline (.slot name) :: before) false after

/-- Segments as they are rendered: texts joined, standalone blocks settled, and no
empty text left. -/
def Segment.arrange (segments : List Segment) : List Segment :=
  (settle [] false (Segment.join segments)).filter fun s => !s.isEmpty

end Covenant.Template
