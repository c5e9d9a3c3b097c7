import Covenant.Text.LowerCase
import Covenant.Text.EscapeTable

/-! Quoted form of a text: between double quotes, with short escapes for the quote,
the backslash and four controls, and `\u{…}` for every other character without a
glyph of its own. Hexadecimal digits, written and read. -/
namespace Covenant.Text

/-! ### Hexadecimal digits -/

/-- Hexadecimal digits in lower case, without leading zeros. -/
def hexDigits (n : Nat) : List Char := Nat.toDigits 16 n

/-- The value of a hexadecimal digit in either case. -/
def hexValue? (c : Char) : Option Nat :=
  if '0' ≤ c && c ≤ '9' then some (c.toNat - 48)
  else if 'a' ≤ c && c ≤ 'f' then some (c.toNat - 87)
  else if 'A' ≤ c && c ≤ 'F' then some (c.toNat - 55)
  else none

/-- The character with the code written in hexadecimal digits. -/
def charOfHex? (ds : List Char) : Option Char := do
  let n ← ds.foldlM (fun n d => return 16 * n + (← hexValue? d)) 0
  if n < 0xD800 || (0xE000 ≤ n && n < 0x110000) then some (Char.ofNat n) else none

/-! ### Quotes -/

def isUnprintable (c : Char) : Bool :=
  if c.toNat < 0x80 then isAsciiControl c else inRanges unprintableRanges c.toNat
where
  isAsciiControl (c : Char) : Bool := c.toNat < 0x20 || c.toNat == 0x7F

def quoteChar (c : Char) : List Char :=
  match c with
  | '"' => ['\\', '"']
  | '\\' => ['\\', '\\']
  | '\n' => ['\\', 'n']
  | '\t' => ['\\', 't']
  | '\r' => ['\\', 'r']
  | '\x00' => ['\\', '0']
  | c => if isUnprintable c then ['\\', 'u', '{'] ++ hexDigits c.toNat ++ ['}'] else [c]

/-- The text between double quotes, escaped. -/
def quoted (s : String) : String :=
  String.ofList ('"' :: s.toList.flatMap quoteChar ++ ['"'])

end Covenant.Text
