import Covenant.Artifact.Fills
import Covenant.Template.Library
import Covenant.Text.Lines

/-! Rendering: the text of a template with its slots filled. A block holds the content
its base template gives it, then what the override adds, then the statements of its
fill. In a standalone block each line of the last two has a line of its own under the
indentation of the block; in a block within a line the pieces are joined by blanks. -/
namespace Covenant.Artifact

open Template

namespace Fills

def renderInline (f : Fills) : Inline → Except Error (List Char)
  | .text cs => .ok cs
  | .slot name => (f.text name.value).map String.toList

def renderInlines (f : Fills) : List Inline → Except Error (List Char)
  | [] => .ok []
  | i :: is => do return (← f.renderInline i) ++ (← f.renderInlines is)

end Fills

/-- What stands in a block, in its three parts. -/
structure BlockContent where
  base : List Char
  extension : Option (List Char)
  statements : List (List Char)

namespace BlockContent

/-- The content of a block that takes up whole lines. -/
def renderLines (indent : List Char) (c : BlockContent) : List Char :=
  c.base ++
    (match c.extension with
      | some e => Text.indentLines indent (Text.dropFinalNewline e)
      | none => []) ++
    c.statements.flatMap (Text.indentLines indent)

/-- The parts of the content that are not blank, without white space at their ends. -/
def pieces (c : BlockContent) : List (List Char) :=
  ((c.base :: c.extension.toList ++ c.statements).map Text.trim).filter (!·.isEmpty)

/-- The content of a block within a line. -/
def renderWithin (c : BlockContent) : List Char := [' '].intercalate c.pieces

end BlockContent

namespace Fills

/-- The content of a block. -/
def blockContent (f : Fills) (r : Resolved) (b : Block) : Except Error BlockContent := do
  let statements ← f.statements b.name.value
  let base ← f.renderInlines b.body
  let extension ← match r.extension? b.name.value with
    | some t => (f.renderInlines t.inlines).map some
    | none => .ok none
  return ⟨base, extension, statements.map String.toList⟩

def renderSegment (f : Fills) (r : Resolved) : Segment → Except Error (List Char)
  | .inline i => f.renderInline i
  | .block b => (f.blockContent r b).map fun c =>
      if b.standalone then c.renderLines b.indent else c.renderWithin

def renderSegments (f : Fills) (r : Resolved) : List Segment → Except Error (List Char)
  | [] => .ok []
  | s :: ss => do return (← f.renderSegment r s) ++ (← f.renderSegments r ss)

/-- The text of a template body. -/
def render (f : Fills) (r : Resolved) (body : Markup) : Except Error (List Char) :=
  f.renderSegments r body.segments

end Fills
end Covenant.Artifact
