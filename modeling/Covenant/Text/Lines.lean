import Covenant.Text.Blank
import Covenant.Text.Pieces

/-! Lines of a text, and lines set under an indentation. Documents that come with the library are
kept as lines, so that they can be read side by side with the text they stand for. -/
namespace Covenant.Text

/-- A character that ends a line: a feed, a return, or a separator of lines or paragraphs. -/
def isLineEnd (c : Char) : Bool :=
  (0x0A ≤ c.toNat && c.toNat ≤ 0x0D) || c.toNat == 0x85 || c.toNat == 0x2028 || c.toNat == 0x2029

/-- The text between newlines. -/
def lines (cs : List Char) : List (List Char) := pieces '\n' cs

/-- The text without the newline at its end, if it ends with one. -/
def dropFinalNewline (cs : List Char) : List Char :=
  match cs.reverse with
  | '\n' :: rest => rest.reverse
  | _ => cs

/-- A line of its own under an indentation; a blank line stays empty. -/
def indentLine (indent line : List Char) : List Char :=
  if line.all isBlank then ['\n'] else indent ++ line ++ ['\n']

/-- Every line of a text on a line of its own. -/
def indentLines (indent cs : List Char) : List Char := (lines cs).flatMap (indentLine indent)

end Covenant.Text

namespace Covenant.Builtin

/-- A document: the name it is known by and its lines, each of which ends in a newline. -/
structure Document where
  name : String
  lines : List String

def Document.text (d : Document) : String :=
  String.ofList (d.lines.flatMap fun l => l.toList ++ ['\n'])

theorem Document.toList_text (d : Document) :
    d.text.toList = d.lines.flatMap fun l => l.toList ++ ['\n'] := String.toList_ofList

end Covenant.Builtin
