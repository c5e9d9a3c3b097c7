import Covenant.Text.Blank
import Covenant.Text.LowerCase
import Covenant.Text.Pieces

/-! Identifiers: the ids of jurisdictions, contract types, verbs, roles, slots and
legal requirements. They are lower-case ASCII words, so that they can stand in
generated code unescaped, and they have two derived spellings there. -/
namespace Covenant.Ident

def isStart (c : Char) : Bool := ('a' ≤ c && c ≤ 'z') || c == '_'

def isPart (c : Char) : Bool := isStart c || ('0' ≤ c && c ≤ '9')

/-- A letter or underscore, then letters, digits and underscores. -/
def isIdentList : List Char → Bool
  | [] => false
  | c :: cs => isStart c && cs.all isPart

/-- Lower-case identifiers. -/
def isIdent (s : String) : Bool := isIdentList s.toList

/-- Ids are compared without white space at the ends and in lower case. -/
def normalize (s : String) : String := Text.lower (Text.trimmed s)

/-- ASCII capital of a small letter, any other character as it is. -/
def upperChar (c : Char) : Char :=
  if 'a' ≤ c && c ≤ 'z' then Char.ofNat (c.toNat - 32) else c

def capitalize : List Char → List Char
  | [] => []
  | c :: cs => upperChar c :: cs

/-- Each word between underscores capitalized, without the underscores. -/
def pascalCase (s : String) : String :=
  String.ofList ((Text.pieces '_' s.toList).flatMap capitalize)

def isAlphanumeric (c : Char) : Bool :=
  ('a' ≤ c && c ≤ 'z') || ('A' ≤ c && c ≤ 'Z') || ('0' ≤ c && c ≤ '9')

/-- Capital letters and digits, with an underscore for every other character. -/
def constantCase (s : String) : String :=
  String.ofList (s.toList.map fun c => if isAlphanumeric c then upperChar c else '_')

end Covenant.Ident
