import Covenant.Ident

/-! Tokens of template text. Almost all of a template is opaque text of another
language; only `{{ name }}`, `{{#block name}}` and `{{/block}}` mean something. Every
pair of opening braces starts a marker, which ends on its own line. The spans of the
tokens tile the source. -/
namespace Covenant.Template

/-- A half-open range of bytes of the source. -/
structure Span where
  start : Nat
  stop : Nat
  deriving DecidableEq, Repr

structure Spanned (α : Type) where
  value : α
  span : Span
  deriving DecidableEq, Repr

/-- What stands between double braces. -/
inductive Marker where
  | slot (name : String)
  | openBlock (name : String)
  | closeBlock
  | malformed (inner : String)
  deriving DecidableEq, Repr

inductive Token where
  | marker (m : Marker)
  /-- A lone brace, ordinary text in every target language. -/
  | brace
  | newline
  | text (cs : List Char)
  deriving DecidableEq, Repr

/-- Length in bytes. -/
def byteLength : List Char → Nat
  | [] => 0
  | c :: cs => c.utf8Size + byteLength cs

theorem byteLength_append (cs ds : List Char) :
    byteLength (cs ++ ds) = byteLength cs + byteLength ds := by
  induction cs with
  | nil => simp [byteLength]
  | cons c cs ih => simp [byteLength, ih, Nat.add_assoc]

/-- The text before the first `}}` of the line and what follows that, if it has one. -/
def splitClose : List Char → Option (List Char × List Char)
  | [] => none
  | '}' :: '}' :: rest => some ([], rest)
  | c :: rest => if c = '\n' then none else (splitClose rest).map fun p => (c :: p.1, p.2)

/-- The rest of the text after a given beginning. -/
def dropWord : List Char → List Char → Option (List Char)
  | [], cs => some cs
  | _ :: _, [] => none
  | w :: ws, c :: cs => if w = c then dropWord ws cs else none

/-- The marker with the given trimmed contents. -/
def classify (inner : List Char) : Marker :=
  let malformed := Marker.malformed (String.ofList inner)
  if inner = "/block".toList then .closeBlock
  else match dropWord "#block".toList inner with
    | some rest =>
      let name := Text.trim rest
      if name.length < rest.length && Ident.isIdentList name then
        .openBlock (String.ofList name)
      else malformed
    | none => if Ident.isIdentList inner then .slot (String.ofList inner) else malformed

/-- A marker read after its opening braces: the characters it takes and the rest. -/
structure ReadMarker where
  marker : Marker
  source : List Char
  rest : List Char

def readMarker (cs : List Char) : ReadMarker :=
  match splitClose cs with
  | some (inner, rest) => ⟨classify (Text.trim inner), inner ++ ['}', '}'], rest⟩
  | none =>
    let line := cs.takeWhile (· != '\n')
    ⟨.malformed (String.ofList (Text.trim line ++ " (unterminated)".toList)), line,
      cs.dropWhile (· != '\n')⟩

theorem splitClose_eq {cs inner rest : List Char} (h : splitClose cs = some (inner, rest)) :
    cs = inner ++ '}' :: '}' :: rest := by
  fun_induction splitClose cs generalizing inner rest with
  | case1 => simp at h
  | case2 r => simp at h; simp [h]
  | case3 => simp at h
  | case4 c r _ _ ih =>
    obtain ⟨p, hp, he⟩ := Option.map_eq_some_iff.1 h
    cases he
    simpa using ih hp

/-- Reading a marker loses nothing. -/
theorem readMarker_append (cs : List Char) :
    (readMarker cs).source ++ (readMarker cs).rest = cs := by
  unfold readMarker
  split
  · next h => simpa using (splitClose_eq h).symm
  · simp

theorem readMarker_length (cs : List Char) : (readMarker cs).rest.length ≤ cs.length := by
  have h := congrArg List.length (readMarker_append cs)
  simp at h
  omega

/-- A character of opaque text. -/
def isTextChar (c : Char) : Bool := c != '{' && c != '\n'

/-- Tokens of the characters from byte `pos` on. -/
def lexFrom (pos : Nat) : List Char → List (Spanned Token)
  | [] => []
  | '{' :: '{' :: cs =>
    let r := readMarker cs
    let stop := pos + 2 + byteLength r.source
    ⟨.marker r.marker, ⟨pos, stop⟩⟩ :: lexFrom stop r.rest
  | '{' :: cs => ⟨.brace, ⟨pos, pos + 1⟩⟩ :: lexFrom (pos + 1) cs
  | '\n' :: cs => ⟨.newline, ⟨pos, pos + 1⟩⟩ :: lexFrom (pos + 1) cs
  | c :: cs =>
    let word := c :: cs.takeWhile isTextChar
    let stop := pos + byteLength word
    ⟨.text word, ⟨pos, stop⟩⟩ :: lexFrom stop (cs.dropWhile isTextChar)
termination_by cs => cs.length
decreasing_by
  · have := readMarker_length cs
    simp
    omega
  · simp
  · simp
  · have := (List.dropWhile_sublist isTextChar (l := cs)).length_le
    simp
    omega

/-- Tokens of a template source. -/
def lex (source : List Char) : List (Spanned Token) := lexFrom 0 source

end Covenant.Template
