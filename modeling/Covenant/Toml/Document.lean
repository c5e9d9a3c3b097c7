import Covenant.Toml.Moment
import Covenant.Toml.Strings
import Covenant.Toml.Value

/-! TOML documents. Tables are built while they are read, and every table remembers how
it came about: by a header, as the parent of one, or by a dotted key. A table can be
defined only once, and only some may still grow. -/
namespace Covenant.Toml

/-- How a table came about. -/
inductive Origin where
  | header
  | parent
  | dotted
  deriving DecidableEq

/-- A part of a document under construction. The elements of a list of tables are kept
last first. -/
inductive Node where
  | value (v : Value)
  | table (origin : Origin) (entries : List (String × Node))
  | tables (elements : List (List (String × Node)))

abbrev Entries := List (String × Node)

namespace Entries

def find? (k : String) : Entries → Option Node
  | [] => none
  | e :: es => if e.1 = k then some e.2 else find? k es

def replace (k : String) (n : Node) : Entries → Entries
  | [] => []
  | e :: es => if e.1 = k then (k, n) :: es else e :: replace k n es

end Entries

/-- Changes the table at the end of a path, making the tables on the way. Each step says
whether it is part of a dotted key. -/
def update (f : Origin → Entries → Option Entries) :
    List (String × Bool) → Origin → Entries → Option Entries
  | [], origin, es => f origin es
  | (k, dotted) :: path, _, es =>
    match es.find? k with
    | none => do
      let made : Origin := if dotted then .dotted else .parent
      let inner ← update f path made []
      return es ++ [(k, .table made inner)]
    | some (.table origin inner) =>
      if dotted && origin == .header then none
      else do
        let inner ← update f path origin inner
        return es.replace k (.table origin inner)
    | some (.tables (last :: others)) => do
      let last ← update f path .header last
      return es.replace k (.tables (last :: others))
    | some _ => none

def steps (dotted : Bool) (ks : List String) : List (String × Bool) := ks.map fun k => (k, dotted)

/-- Opens the table of a header. -/
def openTable (path : List String) (es : Entries) : Option Entries :=
  match path.getLast? with
  | none => none
  | some k =>
    update (fun _ es => match es.find? k with
      | none => some (es ++ [(k, .table .header [])])
      | some (.table .parent inner) => some (es.replace k (.table .header inner))
      | some _ => none) (steps false path.dropLast) .header es

/-- Adds an element to the list of tables of a header. -/
def openElement (path : List String) (es : Entries) : Option Entries :=
  match path.getLast? with
  | none => none
  | some k =>
    update (fun _ es => match es.find? k with
      | none => some (es ++ [(k, .tables [[]])])
      | some (.tables elements) => some (es.replace k (.tables ([] :: elements)))
      | some _ => none) (steps false path.dropLast) .header es

/-- Sets a key of the table under a header. A dotted key may extend only tables that
dotted keys have made. -/
def assign (path key : List String) (n : Node) (es : Entries) : Option Entries :=
  match key.getLast? with
  | none => none
  | some k =>
    update (fun origin es =>
      if key.length > 1 && origin != .dotted then none
      else if (es.find? k).isSome then none
      else some (es ++ [(k, n)])) (steps false path ++ steps true key.dropLast) .header es

mutual

/-- The finished value. -/
def Node.toValue : Node → Value
  | .value v => v
  | .table _ es => .table (Node.toFields es)
  | .tables elements => .array (Node.toElements elements).reverse

def Node.toFields : List (String × Node) → List (String × Value)
  | [] => []
  | (k, n) :: es => (k, n.toValue) :: Node.toFields es

def Node.toElements : List (List (String × Node)) → List Value
  | [] => []
  | es :: rest => .table (Node.toFields es) :: Node.toElements rest

end

/-! ### Values -/

/-- The text after a comment and a line break. -/
def skipComment : List Char → Option (List Char)
  | '#' :: cs => some (cs.dropWhile isTextChar)
  | cs => some cs

/-- The text after a line break. -/
def skipBreak : List Char → Option (List Char)
  | '\n' :: cs => some cs
  | '\r' :: '\n' :: cs => some cs
  | _ => none

/-- The text after white space, line breaks and comments. When `comment`, a comment is
being skipped. -/
def skipLines (comment : Bool) : List Char → List Char
  | '\n' :: cs => skipLines false cs
  | '\r' :: '\n' :: cs => skipLines false cs
  | c :: cs =>
    if comment then (if isTextChar c then skipLines true cs else c :: cs)
    else if isSpace c then skipLines false cs
    else if c == '#' then skipLines true cs
    else c :: cs
  | [] => []

/-- A character of numbers, booleans and moments. -/
def isWordChar (c : Char) : Bool :=
  c.isDigit || ('a' ≤ c && c ≤ 'z') || ('A' ≤ c && c ≤ 'Z') ||
    c == '+' || c == '-' || c == '.' || c == '_' || c == ':'

/-- The characters of a number, boolean or moment. A date takes a time after a blank with
it. -/
def splitWord (cs : List Char) : List Char × List Char :=
  let word := cs.takeWhile isWordChar
  let rest := cs.dropWhile isWordChar
  match Moment.readDate word, rest with
  | some (_, []), ' ' :: c :: more =>
    if c.isDigit then
      (word ++ ' ' :: (c :: more).takeWhile isWordChar, (c :: more).dropWhile isWordChar)
    else (word, rest)
  | _, _ => (word, rest)

/-- What a word that is no string stands for. -/
def wordValue? (word : List Char) : Option Value :=
  if Number.isPlain word then some (.plain word) else (Moment.standard? word).map .moment

mutual

/-- A value at a nesting that leaves room for `depth` more levels; `n` bounds the number
of steps. -/
def readValue : (n depth : Nat) → Reader Value
  | 0, _, _ => none
  | n + 1, depth, cs =>
    match cs with
    | '[' :: rest =>
      match depth with
      | 0 => none
      | depth + 1 => (readItems n depth (skipLines false rest)).map fun p => (.array p.1, p.2)
    | '\x7b' :: rest =>
      match depth with
      | 0 => none
      | depth + 1 =>
        match skipSpaces rest with
        | '}' :: rest => some (.table [], rest)
        | rest => (readPairs n depth [] rest).map fun p => (.table (Node.toFields p.1), p.2)
    | '"' :: _ => (readString cs).map fun p => (.text p.1, p.2)
    | '\'' :: _ => (readString cs).map fun p => (.text p.1, p.2)
    | cs =>
      let (word, rest) := splitWord cs
      (wordValue? word).map fun v => (v, rest)

/-- The items of a list up to its end. -/
def readItems : (n depth : Nat) → Reader (List Value)
  | 0, _, _ => none
  | n + 1, depth, cs =>
    match cs with
    | ']' :: rest => some ([], rest)
    | cs =>
      match readValue n depth cs with
      | none => none
      | some (v, rest) =>
        match skipLines false rest with
        | ']' :: rest => some ([v], rest)
        | ',' :: rest =>
          (readItems n depth (skipLines false rest)).map fun p => (v :: p.1, p.2)
        | _ => none

/-- The pairs of an inline table up to its end, `es` being those before. -/
def readPairs : (n depth : Nat) → Entries → Reader Entries
  | 0, _, _, _ => none
  | n + 1, depth, es, cs =>
    match readKey depthLimit cs with
    | some (key, '=' :: rest) =>
      match readValue n depth (skipSpaces rest) with
      | none => none
      | some (v, rest) =>
        match assign [] key (.value v) es with
        | none => none
        | some es =>
          match skipSpaces rest with
          | '}' :: rest => some (es, rest)
          | ',' :: rest => readPairs n depth es (skipSpaces rest)
          | _ => none
    | _ => none

end

/-! ### Lines -/

/-- What is left of a line must be white space or a comment. -/
def finishLine (cs : List Char) : Option (List Char) :=
  match skipComment (skipSpaces cs) with
  | none => none
  | some [] => some []
  | some rest => skipBreak rest

/-- Reads the lines of a document, `path` being the header they are under. -/
def readLines : (n : Nat) → (path : List String) → Entries → List Char → Option Entries
  | 0, _, _, _ => none
  | n + 1, path, es, cs =>
    match skipLines false cs with
    | [] => some es
    | '[' :: '[' :: rest => do
      let (path, rest) ← readKey depthLimit rest
      match rest with
      | ']' :: ']' :: rest =>
        let es ← openElement path es
        readLines n path es (← finishLine rest)
      | _ => none
    | '[' :: rest => do
      let (path, rest) ← readKey depthLimit rest
      match rest with
      | ']' :: rest =>
        let es ← openTable path es
        readLines n path es (← finishLine rest)
      | _ => none
    | rest => do
      let (key, rest) ← readKey depthLimit rest
      match rest with
      | '=' :: rest =>
        let (v, rest) ← readValue (2 * rest.length + 2) depthLimit (skipSpaces rest)
        let es ← assign path key (.value v) es
        readLines n path es (← finishLine rest)
      | _ => none

/-- A leading byte order mark is not part of the document. -/
def dropMark : List Char → List Char
  | c :: cs => if c.toNat = 0xFEFF then cs else c :: cs
  | [] => []

/-- Reads a document. -/
def read (s : String) : Option Value :=
  let cs := dropMark s.toList
  (readLines (cs.length + 1) [] [] cs).map fun es => .table (Node.toFields es)

end Covenant.Toml
