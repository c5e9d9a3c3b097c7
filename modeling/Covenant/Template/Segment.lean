import Covenant.Template.Token

/-! Segments of template text: opaque text, scalar slots and blocks. Blocks do not
nest, so the content of one is a list of texts and slots. A text whose markers do not
pair up has exactly one fault, the first one met. -/
namespace Covenant.Template

/-- Whether a slot takes one value or a list of statements. -/
inductive SlotKind where
  | scalar
  | block
  deriving DecidableEq, Repr

def SlotKind.text : SlotKind → String
  | .scalar => "scalar"
  | .block => "block"

/-- What may stand inside a block. -/
inductive Inline where
  | text (cs : List Char)
  | slot (name : Spanned String)
  deriving DecidableEq, Repr

/-- A block region. A standalone one has its markers alone on their lines; `indent` is
then the white space before the opening marker. -/
structure Block where
  name : Spanned String
  indent : List Char
  standalone : Bool
  body : List Inline
  deriving DecidableEq, Repr

inductive Segment where
  | inline (i : Inline)
  | block (b : Block)
  deriving DecidableEq, Repr

/-! ### Faults -/

/-- What is wrong with a template text. -/
inductive Fault where
  | malformed (inner : String) (span : Span)
  | strayClose (span : Span)
  | nestedOpen (name : String) (span : Span)
  | unclosed (stop : Nat)
  deriving DecidableEq, Repr

def Fault.span : Fault → Span
  | .malformed _ s | .strayClose s | .nestedOpen _ s => s
  | .unclosed stop => ⟨stop, stop⟩

def Fault.message : Fault → String
  | .malformed inner _ => "malformed marker '" ++ inner ++
      "': expected '\x7b\x7b name \x7d\x7d', '\x7b\x7b#block name\x7d\x7d' or '\x7b\x7b/block\x7d\x7d'"
  | .strayClose _ => "'\x7b\x7b/block\x7d\x7d' without a matching '\x7b\x7b#block ...\x7d\x7d'"
  | .nestedOpen name _ => "block '" ++ name ++ "' opened inside another block"
  | .unclosed _ => "Unexpected end of template"

/-- What could have stood in place of the fault. -/
def Fault.expected : Fault → List String
  | .strayClose _ => ["end of template"]
  | _ => []

/-- The fault on one line. -/
def Fault.text (f : Fault) : String :=
  "Syntax error at " ++ toString f.span.start ++ ".." ++ toString f.span.stop ++ ": " ++ f.message

/-! ### Grouping tokens -/

/-- A block whose closing marker has not been met, its content in reverse. -/
structure OpenBlock where
  name : Spanned String
  content : List Inline

def OpenBlock.close (b : OpenBlock) : Segment :=
  .block ⟨b.name, [], false, b.content.reverse⟩

def OpenBlock.push (b : OpenBlock) (i : Inline) : OpenBlock := { b with content := i :: b.content }

/-- The text or slot that a token is by itself. -/
def Inline.ofToken? : Spanned Token → Option Inline
  | ⟨.text cs, _⟩ => some (.text cs)
  | ⟨.brace, _⟩ => some (.text ['{'])
  | ⟨.newline, _⟩ => some (.text ['\n'])
  | ⟨.marker (.slot name), span⟩ => some (.slot ⟨name, span⟩)
  | ⟨.marker _, _⟩ => none

/-- Groups tokens into segments; `stop` is the end of the source. -/
def Segment.ofTokens (stop : Nat) : Option OpenBlock → List (Spanned Token) → Except Fault (List Segment)
  | none, [] => .ok []
  | some _, [] => .error (.unclosed stop)
  | _, ⟨.marker (.malformed inner), span⟩ :: _ => .error (.malformed inner span)
  | none, ⟨.marker .closeBlock, span⟩ :: _ => .error (.strayClose span)
  | some _, ⟨.marker (.openBlock name), span⟩ :: _ => .error (.nestedOpen name span)
  | none, ⟨.marker (.openBlock name), span⟩ :: ts => Segment.ofTokens stop (some ⟨⟨name, span⟩, []⟩) ts
  | some b, ⟨.marker .closeBlock, _⟩ :: ts => (Segment.ofTokens stop none ts).map (b.close :: ·)
  | none, t :: ts =>
    let rest := Segment.ofTokens stop none ts
    match Inline.ofToken? t with
    | some i => rest.map (.inline i :: ·)
    | none => rest
  | some b, t :: ts =>
    match Inline.ofToken? t with
    | some i => Segment.ofTokens stop (some (b.push i)) ts
    | none => Segment.ofTokens stop (some b) ts

/-! ### Joining texts -/

/-- Adjacent texts made one. -/
def Inline.join : List Inline → List Inline
  | [] => []
  | .slot name :: rest => .slot name :: Inline.join rest
  | .text cs :: rest =>
    match Inline.join rest with
    | .text ds :: tail => .text (cs ++ ds) :: tail
    | tail => .text cs :: tail

/-- Adjacent texts made one, also inside blocks. -/
def Segment.join : List Segment → List Segment
  | [] => []
  | .block b :: rest => .block { b with body := Inline.join b.body } :: Segment.join rest
  | .inline (.slot name) :: rest => .inline (.slot name) :: Segment.join rest
  | .inline (.text cs) :: rest =>
    match Segment.join rest with
    | .inline (.text ds) :: tail => .inline (.text (cs ++ ds)) :: tail
    | tail => .inline (.text cs) :: tail

def Inline.isEmpty : Inline → Bool
  | .text [] => true
  | _ => false

def Segment.isEmpty : Segment → Bool
  | .inline i => i.isEmpty
  | .block _ => false

end Covenant.Template
