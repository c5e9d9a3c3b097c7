import Covenant.Template.Standalone

/-! Template text that has been read: its source, its segments, and the slots it
refers to. -/
namespace Covenant.Template

/-- A use of a slot. -/
structure Reference where
  name : Spanned String
  kind : SlotKind
  deriving DecidableEq, Repr

structure Markup where
  source : List Char
  segments : List Segment
  deriving DecidableEq, Repr

def Inline.references : Inline → List Reference
  | .text _ => []
  | .slot name => [⟨name, .scalar⟩]

def Segment.references : Segment → List Reference
  | .inline i => i.references
  | .block b => ⟨b.name, .block⟩ :: b.body.flatMap Inline.references

namespace Markup

/-- Reads template text. -/
def ofChars (source : List Char) : Except Fault Markup :=
  (Segment.ofTokens (byteLength source) none (lex source)).map fun segments =>
    ⟨source, Segment.arrange segments⟩

def ofString (source : String) : Except Fault Markup := ofChars source.toList

/-- Every use of a slot, in source order. -/
def references (t : Markup) : List Reference := t.segments.flatMap Segment.references

/-- The texts and slots outside blocks. -/
def inlines (t : Markup) : List Inline :=
  t.segments.flatMap fun
    | .inline i => [i]
    | .block _ => []

/-- No blocks. -/
def isInlineOnly (t : Markup) : Bool :=
  t.segments.all fun
    | .inline _ => true
    | .block _ => false

end Markup
end Covenant.Template
