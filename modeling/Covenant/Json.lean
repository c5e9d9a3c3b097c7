import Covenant.Number.Layout

/-! Records as JSON text, indented by two blanks. The fields of an object keep their
order; a quote, a backslash and a control character are escaped and everything else is
written as it is. -/
namespace Covenant

inductive Json where
  | null
  | bool (b : Bool)
  | int (n : Int)
  | double (d : Double)
  | str (s : String)
  | arr (items : List Json)
  | obj (fields : List (String × Json))

namespace Json

def hexPair (n : Nat) : List Char := [Nat.digitChar (n / 16), Nat.digitChar (n % 16)]

def escapeChar (c : Char) : List Char :=
  match c with
  | '"' => ['\\', '"']
  | '\\' => ['\\', '\\']
  | '\x08' => ['\\', 'b']
  | '\t' => ['\\', 't']
  | '\n' => ['\\', 'n']
  | '\x0c' => ['\\', 'f']
  | '\r' => ['\\', 'r']
  | c => if c.toNat < 0x20 then ['\\', 'u', '0', '0'] ++ hexPair c.toNat else [c]

/-- A string between quotes, escaped. -/
def quote (s : String) : String := String.ofList ('"' :: s.toList.flatMap escapeChar ++ ['"'])

def indentText (depth : Nat) : String := String.ofList (List.replicate (2 * depth) ' ')

mutual

/-- The text of a value that stands at the given depth. -/
def write (depth : Nat) : Json → String
  | .null => "null"
  | .bool true => "true"
  | .bool false => "false"
  | .int n => toString n
  | .double d => Double.record.write d
  | .str s => quote s
  | .arr [] => "[]"
  | .arr (i :: is) =>
    "[\n" ++ indentText (depth + 1) ++ write (depth + 1) i ++ writeItems (depth + 1) is ++
      "\n" ++ indentText depth ++ "]"
  | .obj [] => "\x7b\x7d"
  | .obj ((k, v) :: fs) =>
    "\x7b\n" ++ indentText (depth + 1) ++ quote k ++ ": " ++ write (depth + 1) v ++
      writeFields (depth + 1) fs ++ "\n" ++ indentText depth ++ "\x7d"

def writeItems (depth : Nat) : List Json → String
  | [] => ""
  | i :: is => ",\n" ++ indentText depth ++ write depth i ++ writeItems depth is

def writeFields (depth : Nat) : List (String × Json) → String
  | [] => ""
  | (k, v) :: fs =>
    ",\n" ++ indentText depth ++ quote k ++ ": " ++ write depth v ++ writeFields depth fs

end

/-- The text of a record. -/
def pretty (j : Json) : String := write 0 j

end Json
end Covenant
