import Covenant.Yaml.Layout

/-! YAML documents as nodes. Anchors are numbered in order, the number being how many
different names came before; an alias is a node with the number of its name, and stands
for the last node that has the number. -/
namespace Covenant.Yaml

inductive Node where
  | scalar (tag : Option Octets) (style : Style) (text : List Char)
  | sequence (tag : Option Octets) (items : List Node)
  | mapping (tag : Option Octets) (entries : List (Node × Node))
  | alias (number : Nat)

/-- An anchored node: its number, and how far into the document it starts. -/
structure Anchored where
  number : Nat
  start : Nat
  node : Node

/-- A document; `size` counts its scalars and aliases once and its collections twice. -/
structure Graph where
  root : Option Node
  anchored : List Anchored
  size : Nat

/-- The node that a number stands for. -/
def Graph.find? (g : Graph) (number : Nat) : Option Node :=
  (g.anchored.foldl (fun best a =>
    if a.number = number && best.all (·.start < a.start) then some a else best)
    (none : Option Anchored)).map (·.node)

/-- What is known while the nodes of a document are built. -/
structure Build where
  tokens : List Token
  handles : List (List Char × Octets)
  names : List (List Char × Nat) := []
  anchored : List Anchored := []
  size : Nat := 0

abbrev Builder := StateT Build Option

namespace Builder

def peek : Builder Token := do
  match (← get).tokens with
  | t :: _ => return t
  | [] => failure

def skip : Builder Unit := modify fun b => { b with tokens := b.tokens.tail }

def count (n : Nat) : Builder Unit := modify fun b => { b with size := b.size + n }

/-- The full form of a tag. -/
def resolveTag (handle : List Char) (suffix : Octets) : Builder Octets := do
  if handle.isEmpty then return suffix
  match (← get).handles.find? (·.1 == handle) with
  | some h => return h.2 ++ suffix
  | none => failure

/-- What may stand before the content of a node. -/
structure Properties where
  anchor : Option (List Char) := none
  tag : Option Octets := none

def readProperties : Builder Properties := do
  match ← peek with
  | .anchor name =>
    skip
    match ← peek with
    | .tag h s =>
      skip
      return { anchor := name, tag := some (← resolveTag h s) }
    | _ => return { anchor := name }
  | .tag h s =>
    skip
    match ← peek with
    | .anchor name =>
      skip
      return { anchor := name, tag := some (← resolveTag h s) }
    | _ => return { tag := some (← resolveTag h s) }
  | _ => return {}

/-- Numbers an anchor at the start of its node. -/
def openAnchor (anchor : Option (List Char)) : Builder (Option (Nat × Nat)) := do
  match anchor with
  | none => return none
  | some name =>
    let b ← get
    let number := b.names.length
    set { b with names := (name, number) :: b.names.filter (·.1 != name) }
    return some (number, b.size)

/-- Records the finished node of an anchor. -/
def closeAnchor (place : Option (Nat × Nat)) (node : Node) : Builder Node := do
  match place with
  | some (number, start) =>
    modify fun b => { b with anchored := ⟨number, start, node⟩ :: b.anchored }
  | none => pure ()
  return node

/-- A scalar node. -/
def addScalar (p : Properties) (style : Style) (text : List Char) : Builder Node := do
  let place ← openAnchor p.anchor
  count 1
  closeAnchor place (.scalar p.tag style text)

/-- The scalar that stands where nothing is written. -/
def addEmpty (p : Properties := {}) : Builder Node := addScalar p .plain []

/-- A collection with the given content. -/
def collection (p : Properties) (content : Builder Node) : Builder Node := do
  let place ← openAnchor p.anchor
  count 1
  let node ← content
  count 1
  closeAnchor place node

/-- A node without content: something must still be said of it. -/
def addBare (p : Properties) : Builder Node :=
  if p.anchor.isSome || p.tag.isSome then addEmpty p else failure

mutual

/-- A node. In a block collection `block` holds, and `indentless` where a sequence may
stand without indentation. -/
def readNode : Nat → (block indentless : Bool) → Builder Node
  | 0, _, _ => failure
  | n + 1, block, indentless => do
    match ← peek with
    | .alias name =>
      match (← get).names.find? (·.1 == name) with
      | some (_, number) =>
        skip
        count 1
        return .alias number
      | none => failure
    | _ =>
      let p ← readProperties
      match ← peek with
      | .scalar style text =>
        skip
        addScalar p style text
      | .flowSequenceStart =>
        skip
        collection p (do return .sequence p.tag (← readFlowItems n true))
      | .flowMappingStart =>
        skip
        collection p (do return .mapping p.tag (← readFlowPairs n true))
      | .blockEntry =>
        if indentless then collection p (do return .sequence p.tag (← readIndentlessItems n))
        else addBare p
      | .blockSequenceStart =>
        if block then
          skip
          collection p (do return .sequence p.tag (← readBlockItems n))
        else addBare p
      | .blockMappingStart =>
        if block then
          skip
          collection p (do return .mapping p.tag (← readBlockPairs n))
        else addBare p
      | _ => addBare p

/-- A node, or nothing before one of the given tokens. -/
def readOptional : Nat → (block indentless : Bool) → (ends : List Token) → Builder Node
  | 0, _, _, _ => failure
  | n + 1, block, indentless, ends => do
    if ends.contains (← peek) then addEmpty else readNode n block indentless

/-- A value after its colon; without a colon there is none. -/
def readMappedValue : Nat → (block : Bool) → (ends : List Token) → Builder Node
  | 0, _, _ => failure
  | n + 1, block, ends => do
    if (← peek) == .value then
      skip
      readOptional n block block ends
    else addEmpty

def readBlockItems : Nat → Builder (List Node)
  | 0 => failure
  | n + 1 => do
    match ← peek with
    | .blockEntry =>
      skip
      let item ← readOptional n true false [.blockEntry, .blockEnd]
      return item :: (← readBlockItems n)
    | .blockEnd =>
      skip
      return []
    | _ => failure

def readIndentlessItems : Nat → Builder (List Node)
  | 0 => failure
  | n + 1 => do
    match ← peek with
    | .blockEntry =>
      skip
      let item ← readOptional n true false [.blockEntry, .key, .value, .blockEnd]
      return item :: (← readIndentlessItems n)
    | _ => return []

def readBlockPairs : Nat → Builder (List (Node × Node))
  | 0 => failure
  | n + 1 => do
    match ← peek with
    | .key =>
      skip
      let key ← readOptional n true true [.key, .value, .blockEnd]
      let value ← readMappedValue n true [.key, .value, .blockEnd]
      return (key, value) :: (← readBlockPairs n)
    | .blockEnd =>
      skip
      return []
    | _ => failure

/-- The items of a flow sequence. A key among them makes a mapping of one pair; where the
key is left out, so is the token after its indicator. -/
def readFlowItems : Nat → (first : Bool) → Builder (List Node)
  | 0, _ => failure
  | n + 1, first => do
    if (← peek) == .flowSequenceEnd then
      skip
      return []
    if !first then
      if (← peek) == .flowEntry then skip else failure
    match ← peek with
    | .key =>
      skip
      count 1
      let ends := [.flowEntry, .flowSequenceEnd]
      let key ← (if (Token.value :: ends).contains (← peek) then do
          skip
          addEmpty
        else readNode n false false)
      let value ← readMappedValue n false ends
      count 1
      return .mapping none [(key, value)] :: (← readFlowItems n false)
    | .flowSequenceEnd =>
      skip
      return []
    | _ =>
      let item ← readNode n false false
      return item :: (← readFlowItems n false)

def readFlowPairs : Nat → (first : Bool) → Builder (List (Node × Node))
  | 0, _ => failure
  | n + 1, first => do
    if (← peek) == .flowMappingEnd then
      skip
      return []
    if !first then
      if (← peek) == .flowEntry then skip else failure
    match ← peek with
    | .key =>
      skip
      let ends := [.flowEntry, .flowMappingEnd]
      let key ← readOptional n false false (.value :: ends)
      let value ← readMappedValue n false ends
      return (key, value) :: (← readFlowPairs n false)
    | .flowMappingEnd =>
      skip
      return []
    | _ =>
      let key ← readNode n false false
      let value ← addEmpty
      return (key, value) :: (← readFlowPairs n false)

end

/-- The content of a document after its start. -/
def readContent (n : Nat) : Builder Node := do
  match ← peek with
  | .version .. | .handle .. | .documentStart | .documentEnd | .streamEnd => addEmpty
  | _ => readNode n true false

end Builder

/-- The handles that are known without a directive. -/
def commonHandles : List (List Char × Octets) :=
  [(['!'], octets ['!']), (['!', '!'], octets "tag:yaml.org,2002:".toList)]

/-- Reads the directives before the start of a document: one version at most, and every
handle once. -/
def readDirectives (version : Bool) (handles : List (List Char × Octets)) :
    List Token → Option (List (List Char × Octets) × List Token)
  | .version major minor :: ts =>
    if !version && major = 1 && (minor = 1 || minor = 2) then readDirectives true handles ts
    else none
  | .handle name stem :: ts =>
    if handles.any (·.1 == name) then none
    else readDirectives version (handles ++ [(name, stem)]) ts
  | .documentStart :: ts => some (handles ++ commonHandles, ts)
  | _ => none

/-- The only document of a source; there may be none. -/
def Graph.ofTokens (ts : List Token) : Option Graph := do
  let n := 4 * ts.length + 16
  let (root, b) ← (match ts with
    | [.streamEnd] => some (none, { tokens := ts, handles := [] })
    | .version .. :: _ | .handle .. :: _ | .documentStart :: _ => do
      let (handles, ts) ← readDirectives false [] ts
      let (root, b) ← (Builder.readContent n).run { tokens := ts, handles := handles }
      some (some root, b)
    | ts => do
      let (root, b) ← (Builder.readNode n true false).run { tokens := ts, handles := commonHandles }
      some (some root, b))
  if b.tokens.dropWhile (· == .documentEnd) == [.streamEnd] then
    some ⟨root, b.anchored, b.size + if root.isNone then 1 else 0⟩
  else none

/-- Reads a source as a graph of nodes. -/
def Graph.read (source : String) : Option Graph := (tokens source.toList).bind Graph.ofTokens

end Covenant.Yaml
