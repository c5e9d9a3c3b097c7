import Covenant.Text.Quoted
import Covenant.Yaml.Cursor

/-! Tokens of YAML, and how the tokens that hold text are read: scalars in their five
styles, anchors, tags and directives. -/
namespace Covenant.Yaml

/-- How a scalar is written. -/
inductive Style where
  | plain
  | singleQuoted
  | doubleQuoted
  | literal
  | folded
  deriving DecidableEq, Repr

/-- Tags are octets, for what is escaped in them need not make characters. -/
abbrev Octets := List UInt8

/-- The octets of ASCII characters. -/
def octets (cs : List Char) : Octets := cs.map Char.toUInt8

inductive Token where
  | version (major minor : Nat)
  | handle (name : List Char) (stem : Octets)
  | documentStart
  | documentEnd
  | streamEnd
  | blockSequenceStart
  | blockMappingStart
  | blockEnd
  | flowSequenceStart
  | flowSequenceEnd
  | flowMappingStart
  | flowMappingEnd
  | blockEntry
  | flowEntry
  | key
  | value
  | alias (name : List Char)
  | anchor (name : List Char)
  | tag (handle : List Char) (suffix : Octets)
  | scalar (style : Style) (text : List Char)
  deriving DecidableEq, Repr

/-! ### Folding -/

/-- White space between the words of a flow scalar: blanks of one line, or, once a line
has ended, its break and the breaks after it. -/
structure Gap where
  blanks : List Char := []
  folded : Bool := false
  first : List Char := []
  others : List Char := []

/-- What a gap adds to the text: a single line break is a blank. -/
def Gap.text (g : Gap) : List Char :=
  if g.folded then
    if g.first == ['\n'] then (if g.others.isEmpty then [' '] else g.others)
    else g.first ++ g.others
  else g.blanks

/-- Reads a gap. In a plain scalar a tab may not stand left of the column `indent` after
a line break. -/
def Gap.read (indent : Option Int) : Nat → Gap → Cursor → Option (Gap × Cursor)
  | 0, _, _ => none
  | n + 1, g, c =>
    match c.peek with
    | none => some (g, c)
    | some x =>
      if isBlank x then
        let strayTab := match indent with
          | some i => g.folded && (c.column : Int) < i && x == '\t'
          | none => false
        if strayTab then none
        else Gap.read indent n (if g.folded then g else { g with blanks := g.blanks ++ [x] }) c.skip
      else if isBreak x then
        let (b, c) := c.readLine
        if g.folded then Gap.read indent n { g with others := g.others ++ b } c
        else Gap.read indent n { g with blanks := [], folded := true, first := b } c
      else some (g, c)

/-! ### Quoted scalars -/

/-- The character that an escape of one letter stands for. -/
def escape? (c : Char) : Option Char :=
  match c with
  | '0' => some (Char.ofNat 0)
  | 'a' => some '\x07'
  | 'b' => some '\x08'
  | 't' => some '\t'
  | '\t' => some '\t'
  | 'n' => some '\n'
  | 'v' => some '\x0b'
  | 'f' => some '\x0c'
  | 'r' => some '\r'
  | 'e' => some '\x1b'
  | ' ' => some ' '
  | '"' => some '"'
  | '/' => some '/'
  | '\\' => some '\\'
  | 'N' => some (Char.ofNat 0x85)
  | '_' => some (Char.ofNat 0xA0)
  | 'L' => some (Char.ofNat 0x2028)
  | 'P' => some (Char.ofNat 0x2029)
  | _ => none

/-- The number of hexadecimal digits after an escape letter. -/
def escapeDigits? (c : Char) : Option Nat :=
  match c with
  | 'x' => some 2
  | 'u' => some 4
  | 'U' => some 8
  | _ => none

/-- The character escaped after a backslash, and the cursor past it. -/
def readEscape (c : Cursor) : Option (Char × Cursor) := do
  let letter ← c.ahead 1
  match escapeDigits? letter with
  | some k =>
    let ds := (c.skips 2).rest.take k
    if ds.length = k then return (← Text.charOfHex? ds, c.skips (2 + k)) else none
  | none => return (← escape? letter, c.skips 2)

/-- Reads a quoted scalar from inside its quotes, `acc` being the text so far in reverse. -/
def readQuoted (single : Bool) : Nat → List Char → Cursor → Option (List Char × Cursor)
  | 0, _, _ => none
  | n + 1, acc, c =>
    let quote := if single then '\'' else '"'
    if c.atDocumentMark then none
    else match c.peek with
    | none => none
    | some x =>
      if isBlank x || isBreak x then
        match Gap.read none (n + 1) {} c with
        | some (g, c) => readQuoted single n (g.text.reverse ++ acc) c
        | none => none
      else if single && x == '\'' && c.ahead 1 == some '\'' then
        readQuoted single n ('\'' :: acc) (c.skips 2)
      else if x == quote then some (acc.reverse, c.skip)
      else if !single && x == '\\' then
        if (c.ahead 1).any isBreak then
          match Gap.read none (n + 1) { folded := true } c.skip.skipLine with
          | some (g, c) => readQuoted single n (g.text.reverse ++ acc) c
          | none => none
        else match readEscape c with
          | some (y, c) => readQuoted single n (y :: acc) c
          | none => none
      else readQuoted single n (x :: acc) c.skip

/-! ### Plain scalars -/

/-- Whether a character is one of those that structure flow collections. -/
def isFlowIndicator (c : Char) : Bool :=
  c == ',' || c == '[' || c == ']' || c == '{' || c == '}'

/-- A plain scalar: its text, the cursor past it, and whether it ended at a line break. -/
structure PlainScalar where
  text : List Char
  cursor : Cursor
  atBreak : Bool

/-- Reads the words of a plain scalar; `gap` is the white space before the next word. -/
def readPlain (flow : Bool) (indent : Int) : Nat → List Char → Gap → Cursor → Option PlainScalar
  | 0, _, _, _ => none
  | n + 1, acc, gap, c =>
    match c.peek with
    | none => some ⟨acc.reverse, c, gap.folded⟩
    | some x =>
      if isBlank x || isBreak x then
        match Gap.read (some indent) (n + 1) gap c with
        | none => none
        | some (gap, c) =>
          if !flow && (c.column : Int) < indent then some ⟨acc.reverse, c, gap.folded⟩
          else if c.atDocumentMark || c.sees '#' then some ⟨acc.reverse, c, gap.folded⟩
          else readPlain flow indent n acc gap c
      else if flow && x == ':' &&
          (c.ahead 1).any (fun y => isFlowIndicator y || y == '?') then none
      else if (x == ':' && endsWord (c.ahead 1)) || (flow && isFlowIndicator x) then
        some ⟨acc.reverse, c, gap.folded⟩
      else readPlain flow indent n (x :: (gap.text.reverse ++ acc)) {} c.skip

/-! ### Block scalars -/

/-- Skips indentation and empty lines; `indent` is zero until it is known, and `widest`
is the widest indentation met. The breaks come back in reverse. -/
def readIndent (outer : Int) : Nat → (indent widest : Nat) → List Char → Cursor →
    Option (Nat × List Char × Cursor)
  | 0, _, _, _, _ => none
  | n + 1, indent, widest, breaks, c =>
    match c.peek with
    | some ' ' =>
      if indent = 0 || c.column < indent then readIndent outer n indent widest breaks c.skip
      else some (indent, breaks, c)
    | x =>
      let widest := max widest c.column
      if x == some '\t' && (indent = 0 || c.column < indent) then none
      else if x.any isBreak then
        let (b, c) := c.readLine
        readIndent outer n indent widest (b ++ breaks) c
      else
        let found := max (max widest (outer + 1).toNat) 1
        some (if indent = 0 then found else indent, breaks, c)

/-- What becomes of the line breaks at the end of a block scalar. -/
inductive Chomp where
  | strip
  | clip
  | keep
  deriving DecidableEq

/-- Reads the lines of a block scalar. `first` is the break of the line before and `others`
the breaks of the empty lines after it; `spaced` tells whether that line began with a
blank. -/
def readBlockLines (literal : Bool) (chomp : Chomp) (outer : Int) (indent : Nat) :
    Nat → (acc first others : List Char) → (spaced : Bool) → Cursor → Option (List Char × Cursor)
  | 0, _, _, _, _, _ => none
  | n + 1, acc, first, others, spaced, c =>
    if c.column = indent && c.peek.isSome then
      let blank := c.peek.any isBlank
      let acc :=
        if !literal && first == ['\n'] && !spaced && !blank then
          if others.isEmpty then ' ' :: acc else acc
        else first ++ acc
      let (line, c) := c.takeWhile fun x => !isBreak x
      let (first, c) := c.readLine
      match readIndent outer (n + 1) indent 0 [] c with
      | none => none
      | some (_, breaks, c) =>
        readBlockLines literal chomp outer indent n (line.reverse ++ (others ++ acc)) first breaks blank c
    else
      let acc := match chomp with
        | .strip => acc
        | .clip => first ++ acc
        | .keep => others ++ (first ++ acc)
      some (acc.reverse, c)

/-- A chomping indicator. -/
def chomp? (c : Option Char) : Option Chomp :=
  match c with
  | some '+' => some .keep
  | some '-' => some .strip
  | _ => none

/-- The header of a block scalar: chomping and indentation, in either order. -/
def readBlockHeader (c : Cursor) : Option (Chomp × Option Nat × Cursor) :=
  let digit? (c : Cursor) : Option (Option Nat × Cursor) :=
    match c.peek with
    | some x =>
      if x.isDigit then (if x == '0' then none else some (some (x.toNat - 48), c.skip))
      else some (none, c)
    | none => some (none, c)
  match chomp? c.peek with
  | some chomp => (digit? c.skip).map fun p => (chomp, p.1, p.2)
  | none =>
    match digit? c with
    | none => none
    | some (some k, c) =>
      match chomp? c.peek with
      | some chomp => some (chomp, some k, c.skip)
      | none => some (.clip, some k, c)
    | some (none, c) => some (.clip, none, c)

/-- Reads a block scalar after its indicator; `outer` is the indentation around it. -/
def readBlock (literal : Bool) (outer : Int) (c : Cursor) : Option (List Char × Cursor) := do
  let (chomp, increment, c) ← readBlockHeader c
  let c := (c.skipWhile isBlank).skipComment
  if !endsLine c.peek then none
  else
    let c := c.skipLine
    let indent := match increment with
      | some k => if 0 ≤ outer then outer.toNat + k else k
      | none => 0
    let (indent, breaks, c) ← readIndent outer (c.rest.length + 1) indent 0 [] c
    readBlockLines literal chomp outer indent (c.rest.length + 1) [] [] breaks false c

/-! ### Anchors, tags, directives -/

/-- The name of an anchor or alias, after its indicator. -/
def readName (c : Cursor) : Option (List Char × Cursor) :=
  let (name, c) := c.takeWhile isNameChar
  let ends := match c.peek with
    | none => true
    | some x => isBlank x || isBreak x || x == '?' || x == ':' || x == ',' || x == ']' ||
        x == '}' || x == '%' || x == '@' || x.toNat == 0x60
  if name.isEmpty || !ends then none else some (name, c)

/-- A character of tags besides the escapes; between angle brackets some more are. -/
def isTagChar (verbatim : Bool) (c : Char) : Bool :=
  isNameChar c || ";/?:@&=+$.!~*'()".toList.contains c || (verbatim && ",[]".toList.contains c)

/-- The next `n` octets, all written as percent escapes. -/
def readOctets : Nat → Cursor → Option (Octets × Cursor)
  | 0, c => some ([], c)
  | n + 1, c =>
    match c.rest with
    | '%' :: a :: b :: _ => do
      let hi ← Text.hexValue? a
      let lo ← Text.hexValue? b
      let (os, c) ← readOctets n (c.skips 3)
      return ((16 * hi + lo).toUInt8 :: os, c)
    | _ => none

/-- The number of octets of the character that a leading octet starts. -/
def octetCount (o : UInt8) : Nat :=
  if o < 0x80 then 1
  else if 0xC0 ≤ o && o < 0xE0 then 2
  else if 0xE0 ≤ o && o < 0xF0 then 3
  else if 0xF0 ≤ o && o < 0xF8 then 4
  else 0

/-- An octet of a character after its leading one. -/
def isTrailing (o : UInt8) : Bool := 0x80 ≤ o && o < 0xC0

/-- Percent escapes for the octets of a character: a leading octet and as many trailing
ones as it asks for, whether or not there is such a character. -/
def readEscaped (c : Cursor) : Option (Octets × Cursor) := do
  let ([first], c) ← readOctets 1 c | none
  match octetCount first with
  | 0 => none
  | k + 1 =>
    let (os, c) ← readOctets k c
    if os.all isTrailing then some (first :: os, c) else none

/-- The octets of a tag, `acc` being those so far in reverse. -/
def readTagText (verbatim : Bool) : Nat → Octets → Cursor → Option (Octets × Cursor)
  | 0, _, _ => none
  | n + 1, acc, c =>
    match c.peek with
    | some '%' =>
      match readEscaped c with
      | some (os, c) => readTagText verbatim n (os.reverse ++ acc) c
      | none => none
    | some x =>
      if isTagChar verbatim x then readTagText verbatim n (x.toUInt8 :: acc) c.skip
      else some (acc.reverse, c)
    | none => some (acc.reverse, c)

/-- A tag ends before its first zero octet. -/
def untilZero (os : Octets) : Octets := os.takeWhile (· != 0)

/-- The handle of a tag: `!`, letters and perhaps another `!`. -/
def readHandle (c : Cursor) : Option (List Char × Cursor) :=
  if c.sees '!' then
    let (name, c) := c.skip.takeWhile isNameChar
    if c.sees '!' then some ('!' :: name ++ ['!'], c.skip) else some ('!' :: name, c)
  else none

/-- Reads a tag: between angle brackets, with a handle, or with the primary handle. Nothing
after the primary handle is the tag `!`. -/
def readTag (flow : Bool) (c : Cursor) : Option (Token × Cursor) := do
  let (tag, c) ← (if c.ahead 1 == some '<' then do
      let (text, c) ← readTagText true (c.rest.length + 1) [] (c.skips 2)
      if text.isEmpty || !c.sees '>' then none else some (Token.tag [] (untilZero text), c.skip)
    else do
      let (handle, d) ← readHandle c
      if handle.length > 1 && handle.getLast? == some '!' then
        let (text, c) ← readTagText false (d.rest.length + 1) [] d
        if text.isEmpty then none else some (Token.tag handle (untilZero text), c)
      else
        let (text, c) ← readTagText false (d.rest.length + 1) (octets handle.tail).reverse d
        let suffix := untilZero text
        some (if suffix.isEmpty then Token.tag [] (octets ['!']) else Token.tag ['!'] suffix, c))
  if endsWord c.peek || (flow && c.sees ',') then some (tag, c) else none

/-- A number of at most nine digits. -/
def readNumber (c : Cursor) : Option (Nat × Cursor) :=
  let (ds, c) := c.takeWhile Char.isDigit
  if ds.isEmpty || ds.length > 9 then none
  else some (ds.foldl (fun n d => 10 * n + (d.toNat - 48)) 0, c)

/-- Reads a directive after its indicator, with the rest of its line. -/
def readDirective (c : Cursor) : Option (Token × Cursor) := do
  let (name, c) := c.takeWhile isNameChar
  if !endsWord c.peek then none
  let c := c.skipWhile isBlank
  let (token, c) ← (
    if name = "YAML".toList then do
      let (major, c) ← readNumber c
      if !c.sees '.' then none
      let (minor, c) ← readNumber c.skip
      some (Token.version major minor, c)
    else if name = "TAG".toList then do
      let (handle, c) ← readHandle c
      if handle.length > 1 && handle.getLast? != some '!' then none
      if !c.peek.any isBlank then none
      let c := c.skipWhile isBlank
      let (stem, c) ← readTagText true (c.rest.length + 1) [] c
      if stem.isEmpty || !endsWord c.peek then none
      some (Token.handle handle (untilZero stem), c)
    else none)
  let c := (c.skipWhile isBlank).skipComment
  if endsLine c.peek then some (token, c.skipLine) else none

end Covenant.Yaml
