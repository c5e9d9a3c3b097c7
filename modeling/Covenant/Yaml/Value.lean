import Covenant.Yaml.Node
import Covenant.Yaml.Plain

/-! YAML values: nodes with their aliases put in and their scalars understood. A local
tag stays with its value; a mapping does not hold a key twice. -/
namespace Covenant.Yaml

/-- Numbers are integers of 64 bits, with or without a sign, or have double precision. -/
inductive Number where
  | int (n : Int)
  | double (d : Double)
  deriving DecidableEq, Repr

namespace Number

def same : Number → Number → Bool
  | .int a, .int b => a == b
  | .double a, .double b => a.same b
  | _, _ => false

/-- The number as a natural number of 64 bits, if it is one. -/
def toNat? : Number → Option Nat
  | .int (.ofNat n) => some n
  | _ => none

/-- The number as an integer of 64 bits with a sign, if it is one. -/
def toInt? : Number → Option Int
  | .int n => if n < (Word.count 63 : Int) then some n else none
  | .double _ => none

def toDouble : Number → Double
  | .int n => Double.ofInt n
  | .double d => d

end Number

inductive Value where
  | null
  | bool (b : Bool)
  | number (n : Number)
  | text (s : String)
  | sequence (items : List Value)
  | mapping (entries : List (Value × Value))
  | tagged (tag : String) (value : Value)

namespace Value

/-- The name of a tag without a mark in front, unless the mark is all of it. -/
def unmarked (tag : String) : List Char :=
  match tag.toList with
  | '!' :: c :: cs => c :: cs
  | cs => cs

mutual

/-- Equality of keys: the order of a mapping does not count, nor does a mark before the
name of a tag. -/
def same : Value → Value → Bool
  | .null, .null => true
  | .bool a, .bool b => a == b
  | .number a, .number b => a.same b
  | .text a, .text b => a == b
  | .sequence as, .sequence bs => sameItems as bs
  | .mapping as, .mapping bs => as.length == bs.length && sameEntries as bs
  | .tagged t a, .tagged u b => unmarked t == unmarked u && same a b
  | _, _ => false

def sameItems : List Value → List Value → Bool
  | [], [] => true
  | a :: as, b :: bs => same a b && sameItems as bs
  | _, _ => false

/-- Every entry of the first list is in the second. -/
def sameEntries : List (Value × Value) → List (Value × Value) → Bool
  | [], _ => true
  | (k, v) :: as, bs => (bs.any fun b => same k b.1 && same v b.2) && sameEntries as bs

end

/-- The value without its tags. -/
def untagged : Value → Value
  | .tagged _ v => v.untagged
  | v => v

/-- The entry of a text key in a mapping, tagged or not. -/
def get? (v : Value) (k : String) : Option Value :=
  match v.untagged with
  | .mapping es => (es.find? fun e => match e.1 with
      | .text s => s == k
      | _ => false).map (·.2)
  | _ => none

def isMapping (v : Value) : Bool :=
  match v.untagged with
  | .mapping _ => true
  | _ => false

/-- A text, tagged or not. -/
def asText? (v : Value) : Option String :=
  match v.untagged with
  | .text s => some s
  | _ => none

end Value

/-! ### Reading a graph -/

/-- The deepest nesting of collections. -/
def depthLimit : Nat := 128

/-- How often aliases are followed, for every node of the document. -/
def aliasFactor : Nat := 100

/-- Reading counts the aliases it follows. -/
abbrev Reading := StateT Nat Option

/-- The node itself, or the one that an alias stands for. -/
def Graph.follow (g : Graph) : Node → Reading Node
  | .alias number => do
    modify (· + 1)
    if aliasFactor * g.size < (← get) then failure
    match g.find? number with
    | some node => return node
    | none => failure
  | node => return node

/-- A local tag starts with a mark. -/
def isLocal (tag : Octets) : Bool := tag.head? == some '!'.toUInt8

/-- The name of a local tag: what is after its mark, or the mark where nothing is. A tag
that is no text has no name. -/
def localName? (tag : Octets) : Option String :=
  if isLocal tag then
    String.fromUTF8? ⟨(if tag.tail.isEmpty then tag else tag.tail).toArray⟩
  else none

def coreTag (name : String) : Octets := octets ("tag:yaml.org,2002:".toList ++ name.toList)

def plainValue (text : List Char) : Option Value :=
  (Plain.meaning? text).map fun
    | .null => .null
    | .bool b => .bool b
    | .int n => .number (.int n)
    | .double d => .number (.double d)
    | .text => .text (String.ofList text)

/-- An integer that has a value; one of more than 64 bits has none. -/
def intValue (text : List Char) : Option Value := do
  let n ← Plain.int? text
  if Word.holds 64 n then some (.number (.int n)) else none

/-- The value with its local tag, if it has one with a name. -/
def tagValue (tag : Option Octets) (v : Value) : Value :=
  match tag.bind localName? with
  | some name => .tagged name v
  | none => v

/-- A scalar. A standard tag decides how its text is understood; with any other tag that is
not local it is a text. -/
def scalarValue (tag : Option Octets) (style : Style) (text : List Char) : Option Value :=
  let s := Value.text (String.ofList text)
  if tag.all isLocal then
    (if style = .plain then plainValue text else some s).map (tagValue tag)
  else if tag = coreTag "bool" then (Plain.bool? text).map .bool
  else if tag = coreTag "int" then intValue text
  else if tag = coreTag "float" then (Plain.double? text).map fun d => .number (.double d)
  else if tag = coreTag "null" then (if Plain.isNull text then some .null else none)
  else some s

/-- A mapping, if no key is in it twice. -/
def mappingOf? (entries : List (Value × Value)) : Option Value :=
  go [] entries
where
  go (seen : List (Value × Value)) : List (Value × Value) → Option Value
    | [] => some (.mapping seen.reverse)
    | e :: rest => if seen.any fun f => f.1.same e.1 then none else go (e :: seen) rest

/-- The value of a node at a nesting that leaves room for `depth` more collections. -/
def Graph.valueOf (g : Graph) : (depth : Nat) → Node → Reading Value
  | depth, node => do
    match ← g.follow node with
    | .scalar tag style text => scalarValue tag style text
    | .sequence tag items =>
      match depth with
      | 0 => failure
      | depth + 1 => return tagValue tag (.sequence (← items.mapM (g.valueOf depth)))
    | .mapping tag entries =>
      match depth with
      | 0 => failure
      | depth + 1 => do
        let entries ← entries.mapM fun e => return (← g.valueOf depth e.1, ← g.valueOf depth e.2)
        return tagValue tag (← mappingOf? entries)
    | .alias _ => failure

/-- The value of a document; one without a node is null. -/
def Graph.value? (g : Graph) : Option Value :=
  match g.root with
  | some node => ((g.valueOf depthLimit node).run 0).map (·.1)
  | none => some .null

/-- What an error says of a source that cannot be read or does not fit its form. -/
def refusal : String := "<yaml>"

/-- Reads a source as a value. -/
def Value.read (source : String) : Option Value := (Graph.read source).bind Graph.value?

end Covenant.Yaml
