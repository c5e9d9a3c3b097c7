import Covenant.Proofs.Artifact.Rendering
import Covenant.Template.Standalone

/-! Where the blocks of a body stand. A walk over the segments keeps the last line of the
text so far as long as the template alone determines it. A body is laid out when every
standalone block starts a line and has no content of its own, and every other block has
a line to itself: white space before it, blank content, and a newline after it. -/
namespace Covenant.Artifact

open Template
open Text (lines isBlank)

/-! ### The walk -/

/-- The last line of the text so far, if the template determines it. -/
def lineAfter (line : Option (List Char)) : Segment → Option (List Char)
  | .inline (.text cs) =>
    if hasNewline cs then some (lastLine cs) else line.map (· ++ cs)
  | .inline (.slot _) => none
  | .block b => if b.standalone then some [] else none

def isBlankText : Inline → Bool
  | .text cs => cs.all isBlank
  | .slot _ => false

/-- Whether the text that follows starts with a newline. -/
def startsNewline : List Segment → Bool
  | .inline (.text ('\n' :: _)) :: _ => true
  | _ => false

/-- Whether a block stands where the text before and after it leaves lines to it. -/
def hasLines (line : Option (List Char)) (b : Block) (after : List Segment) : Bool :=
  if b.standalone then line == some [] && b.body.isEmpty && isSpacing b.indent
  else line.any (fun l => !l.isEmpty && isSpacing l) && b.body.all isBlankText &&
    b.indent.isEmpty && startsNewline after

def isLaidOut (line : Option (List Char)) : List Segment → Bool
  | [] => true
  | .block b :: rest => hasLines line b rest && isLaidOut (lineAfter line (.block b)) rest
  | .inline i :: rest => isLaidOut (lineAfter line (.inline i)) rest

end Covenant.Artifact
