/-! Values of TOML documents. The documents of this library hold texts, lists and
tables; numbers and booleans are checked for their form and kept as written, since no
field asks for one. -/
namespace Covenant.Toml

/-- What an error says of a document that cannot be read or does not fit its form. -/
def refusal : String := "<toml>"

inductive Value where
  | text (cs : List Char)
  /-- A number or boolean, as written. -/
  | plain (cs : List Char)
  /-- A date, a time or both, in standard form. -/
  | moment (cs : List Char)
  | array (items : List Value)
  | table (entries : List (String × Value))

namespace Value

def isEmpty : Value → Bool
  | .array [] => true
  | .table [] => true
  | _ => false

/-- The characters of a text. -/
def asChars? : Value → Option (List Char)
  | .text cs => some cs
  | _ => none

def asText? (v : Value) : Option String := v.asChars?.map String.ofList

/-- A list of texts. -/
def asTexts? : Value → Option (List String)
  | .array items => items.mapM asText?
  | _ => none

/-- The key under which a moment is an entry of a table. -/
def momentKey : String := "$__toml_private_datetime"

/-- A table. A moment counts as the table that has its text as the only entry. -/
def asTable? : Value → Option (List (String × Value))
  | .table es => some es
  | .moment cs => some [(momentKey, .text cs)]
  | _ => none

/-- The entries of a table, each with what is read from its value. -/
def asTableOf? (read : Value → Option α) (v : Value) : Option (List (String × α)) := do
  let es ← v.asTable?
  es.mapM fun e => return (e.1, ← read e.2)

/-- One of a list of names: written as a text, or as the only key of a table whose value is
empty. -/
def asName? : Value → Option String
  | .text cs => some (String.ofList cs)
  | .table [(k, v)] => if v.isEmpty then some k else none
  | _ => none

/-- The fields of a record in the given order, absent ones as `none`. A table may hold no
other field; a list gives the fields by position, and what follows the last is ignored. -/
structure Fields where
  positional : Bool
  values : List (Option Value)

def find? (k : String) : List (String × Value) → Option Value
  | [] => none
  | e :: es => if e.1 = k then some e.2 else find? k es

def fields? (names : List String) : Value → Option Fields
  | .array items => some ⟨true, (List.range names.length).map (items[·]?)⟩
  | v => do
    let es ← v.asTable?
    if es.all fun e => names.contains e.1 then some ⟨false, names.map (find? · es)⟩ else none

end Value
end Covenant.Toml
