import Covenant.Yaml.Token

/-! The structure of a YAML source as tokens. Block collections are told by indentation:
their start and end become tokens of their own. A mapping key of one line is only known
as such at its colon, so the place where a key may have started is remembered, for every
level of flow collections, and the tokens before the key are put in there afterwards. -/
namespace Covenant.Yaml

/-- A place where a key may have started: the number of tokens before it and its
position. A required key is one that no other token may replace. -/
structure PossibleKey where
  tokens : Nat
  index : Nat
  line : Nat
  column : Nat
  required : Bool

/-- The tokens so far, last first, and what decides about the next one. -/
structure Layout where
  cursor : Cursor
  tokens : List Token := []
  count : Nat := 0
  /-- The indentation of the block collection around, and those outside it. -/
  indent : Int := -1
  outer : List Int := []
  /-- Whether a key may start here. -/
  keyAllowed : Bool := true
  /-- The key that may have started at this level of flow collections. -/
  key : Option PossibleKey := none
  /-- The keys of the levels outside; their number is the depth of flow collections. -/
  outerKeys : List (Option PossibleKey) := []

namespace Layout

def inFlow (s : Layout) : Bool := !s.outerKeys.isEmpty

def push (s : Layout) (t : Token) : Layout :=
  { s with tokens := t :: s.tokens, count := s.count + 1 }

/-- Puts a token in after the first `n` tokens. -/
def insertAfter (s : Layout) (n : Nat) (t : Token) : Layout :=
  { s with
    tokens := s.tokens.take (s.count - n) ++ t :: s.tokens.drop (s.count - n)
    count := s.count + 1 }

/-- Past `k` characters. -/
def advance (s : Layout) (k : Nat) : Layout := { s with cursor := s.cursor.skips k }

/-- White space, comments and line breaks before the next token. A byte order mark may
start a line. -/
def skipSpace : Nat → Layout → Layout
  | 0, s => s
  | n + 1, s =>
    let c := s.cursor
    let c := if c.column = 0 && c.peek.any (·.toNat == 0xFEFF) then c.skip else c
    let tabs := s.inFlow || !s.keyAllowed
    let c := (c.skipWhile fun x => x == ' ' || (tabs && x == '\t')).skipComment
    if c.peek.any isBreak then
      skipSpace n { s with cursor := c.skipLine, keyAllowed := s.keyAllowed || !s.inFlow }
    else { s with cursor := c }

/-- Whether a possible key can no longer be one: a key is on one line, and its colon at most
1024 octets from its start. -/
def isStale (s : Layout) (k : PossibleKey) : Bool :=
  k.line < s.cursor.line || k.index + 1024 < s.cursor.index

/-- Gives up one possible key if it is stale. -/
def refreshKey (s : Layout) : Option PossibleKey → Option (Option PossibleKey)
  | none => some none
  | some k => if s.isStale k then (if k.required then none else some none) else some (some k)

/-- Gives up the possible keys that are stale. -/
def refreshKeys (s : Layout) : Option Layout := do
  let key ← s.refreshKey s.key
  let outerKeys ← s.outerKeys.mapM s.refreshKey
  return { s with key := key, outerKeys := outerKeys }

/-- Closes the block collections that are indented more than the column. -/
def closeBlocks (column : Int) : Nat → Layout → Layout
  | 0, s => s
  | n + 1, s =>
    if !s.inFlow && column < s.indent then
      closeBlocks column n
        { s.push .blockEnd with indent := s.outer.headD (-1), outer := s.outer.tail }
    else s

def unindent (s : Layout) (column : Int) : Layout := closeBlocks column (s.outer.length + 1) s

/-- Opens a block collection at a column, if none is open there; its token comes after
the first `n` tokens. -/
def openBlock (s : Layout) (column n : Nat) (t : Token) : Layout :=
  if !s.inFlow && s.indent < column then
    { s.insertAfter n t with indent := column, outer := s.indent :: s.outer }
  else s

/-- Gives up the key that may have started; a required one cannot be given up. -/
def dropKey (s : Layout) : Option Layout :=
  if s.key.any (·.required) then none else some { s with key := none }

/-- Remembers that a key may start here. -/
def saveKey (s : Layout) : Option Layout :=
  if s.keyAllowed then do
    let c := s.cursor
    let required := !s.inFlow && s.indent == (c.column : Int)
    let s ← s.dropKey
    return { s with key := some ⟨s.count, c.index, c.line, c.column, required⟩ }
  else some s

/-- A token of the document structure, after all blocks are closed. -/
def startFresh (s : Layout) : Option Layout := do
  let s ← (s.unindent (-1)).dropKey
  return { s with keyAllowed := false }

def openFlow (s : Layout) (t : Token) : Option Layout := do
  let s ← s.saveKey
  return { (s.advance 1).push t with
    key := none, outerKeys := s.key :: s.outerKeys, keyAllowed := true }

def closeFlow (s : Layout) (t : Token) : Option Layout := do
  let s ← s.dropKey
  let s := match s.outerKeys with
    | k :: ks => { s with key := k, outerKeys := ks }
    | [] => s
  return { (s.advance 1).push t with keyAllowed := false }

/-- An entry of a block sequence. -/
def addEntry (s : Layout) : Option Layout :=
  if !s.inFlow && !s.keyAllowed then none
  else do
    let s ← (s.openBlock s.cursor.column s.count .blockSequenceStart).dropKey
    return { (s.advance 1).push .blockEntry with keyAllowed := true }

/-- A key told by its indicator. -/
def addKey (s : Layout) : Option Layout :=
  if !s.inFlow && !s.keyAllowed then none
  else do
    let s ← (s.openBlock s.cursor.column s.count .blockMappingStart).dropKey
    return { (s.advance 1).push .key with keyAllowed := !s.inFlow }

/-- A colon: it makes the key that may have started one. -/
def addValue (s : Layout) : Option Layout :=
  match s.key with
  | some k =>
    let s := (s.insertAfter k.tokens .key).openBlock k.column k.tokens .blockMappingStart
    some { (s.advance 1).push .value with key := none, keyAllowed := false }
  | none =>
    if !s.inFlow && !s.keyAllowed then none
    else
      let s := s.openBlock s.cursor.column s.count .blockMappingStart
      some { (s.advance 1).push .value with keyAllowed := !s.inFlow }

/-- A token that may start a key, with the cursor past it. -/
def addNode (s : Layout) (read : Cursor → Option (Token × Cursor)) : Option Layout := do
  let s ← s.saveKey
  let (t, c) ← read s.cursor
  return { s.push t with cursor := c, keyAllowed := false }

def addPlain (n : Nat) (s : Layout) : Option Layout := do
  let s ← s.saveKey
  let p ← readPlain s.inFlow (s.indent + 1) n [] {} s.cursor
  return { s.push (.scalar .plain p.text) with cursor := p.cursor, keyAllowed := p.atBreak }

def addBlock (s : Layout) (literal : Bool) : Option Layout := do
  let s ← s.dropKey
  let (text, c) ← readBlock literal s.indent s.cursor.skip
  return { s.push (.scalar (if literal then .literal else .folded) text) with
    cursor := c, keyAllowed := true }

def addQuoted (n : Nat) (s : Layout) (single : Bool) : Option Layout :=
  s.addNode fun c => do
    let (text, c) ← readQuoted single n [] c.skip
    return (.scalar (if single then .singleQuoted else .doubleQuoted) text, c)

/-- Whether a plain scalar can start with a character, given the one after it. -/
def startsPlain (flow : Bool) (x : Char) (next : Option Char) : Bool :=
  !("-?:,[]\x7b\x7d#&*!|>'\"%@".toList.contains x || x.toNat == 0x60 || isBlank x || isBreak x) ||
    (x == '-' && !next.any isBlank) ||
    (!flow && (x == '?' || x == ':') && !endsWord next)

/-- Adds the next token, which starts with `x` at the cursor; `n` is more than the length
of the rest of the source. -/
def addToken (n : Nat) (s : Layout) (x : Char) : Option Layout :=
  let c := s.cursor
  let next := c.ahead 1
  if c.column = 0 && x == '%' then do
    let s ← s.startFresh
    let (t, c) ← readDirective s.cursor.skip
    return { s.push t with cursor := c }
  else if c.atMark '-' then do
    return ((← s.startFresh).advance 3).push .documentStart
  else if c.atMark '.' then do
    return ((← s.startFresh).advance 3).push .documentEnd
  else if x == '[' then s.openFlow .flowSequenceStart
  else if x == '{' then s.openFlow .flowMappingStart
  else if x == ']' then s.closeFlow .flowSequenceEnd
  else if x == '}' then s.closeFlow .flowMappingEnd
  else if x == ',' then do
    return { ((← s.dropKey).advance 1).push .flowEntry with keyAllowed := true }
  else if x == '-' && endsWord next then s.addEntry
  else if x == '?' && (s.inFlow || endsWord next) then s.addKey
  else if x == ':' && (s.inFlow || endsWord next) then s.addValue
  else if x == '*' then s.addNode fun c => (readName c.skip).map fun p => (.alias p.1, p.2)
  else if x == '&' then s.addNode fun c => (readName c.skip).map fun p => (.anchor p.1, p.2)
  else if x == '!' then s.addNode (readTag s.inFlow)
  else if x == '|' && !s.inFlow then s.addBlock true
  else if x == '>' && !s.inFlow then s.addBlock false
  else if x == '\'' then addQuoted n s true
  else if x == '"' then addQuoted n s false
  else if startsPlain s.inFlow x next then addPlain n s
  else none

/-- Adds all tokens of the source; every one takes at least a character. -/
def addTokens : Nat → Layout → Option Layout
  | 0, _ => none
  | n + 1, s => do
    let s ← (s.skipSpace (n + 1)).refreshKeys
    match s.cursor.peek with
    | none => return (← (s.unindent (-1)).dropKey).push .streamEnd
    | some x => addTokens n (← (s.unindent s.cursor.column).addToken (n + 1) x)

end Layout

/-- The tokens of a source. -/
def tokens (source : List Char) : Option (List Token) :=
  if source.all isSourceChar then do
    let s ← Layout.addTokens (source.length + 1) { cursor := { rest := source } }
    return s.tokens.reverse
  else none

end Covenant.Yaml
