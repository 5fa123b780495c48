import LiveRooms.Text.Blank

/-!
# Quoted texts with escapes

A text is shown between double quotes.  Quote, backslash and four control characters have short
escapes; every other character that would not show as itself is written as `\u`, a brace, its code
in lower-case hexadecimal without leading zeros, and a brace.
-/

namespace LiveRooms.Text

/-- A character that changes or joins the text around it without a mark of its own: a format
character, a combining mark of the general blocks, a code for private use, or a noncharacter. -/
def isUnseen (c : Char) : Bool :=
  let n := c.toNat
  let within := fun (lo hi : Nat) => decide (lo ≤ n) && decide (n ≤ hi)
  n == 0xAD || n == 0x61C || n == 0x180E || within 0x200B 0x200F || within 0x202A 0x202E ||
    within 0x2060 0x206F || n == 0xFEFF || within 0xFFF9 0xFFFB || within 0xE0000 0xE0FFF ||
    within 0x300 0x36F || within 0x1AB0 0x1AFF || within 0x1DC0 0x1DFF || within 0x20D0 0x20FF ||
    within 0xFE00 0xFE0F || within 0xFE20 0xFE2F ||
    within 0xE000 0xF8FF || within 0xF0000 0x10FFFF ||
    within 0xFDD0 0xFDEF || n % 0x10000 == 0xFFFE || n % 0x10000 == 0xFFFF

/-- A control character, or a blank other than the space. -/
def isControl (c : Char) : Bool :=
  c.toNat < 0x20 || (0x7F ≤ c.toNat && c.toNat < 0xA0) || (isBlank c && c != ' ')

/-- The escape of a character by its code. -/
def codeEscape (c : Char) : List Char :=
  '\\' :: 'u' :: '\x7b' :: Nat.toDigits 16 c.toNat ++ ['\x7d']

/-- How a character is written between quotes. -/
def escaped (c : Char) : List Char :=
  if c = '"' then ['\\', '"']
  else if c = '\\' then ['\\', '\\']
  else if c = '\t' then ['\\', 't']
  else if c = '\n' then ['\\', 'n']
  else if c = '\r' then ['\\', 'r']
  else if c = '\x00' then ['\\', '0']
  else if isControl c || isUnseen c then codeEscape c
  else [c]

/-- The text between double quotes. -/
def quoted (s : String) : String :=
  String.ofList ('"' :: s.toList.flatMap escaped ++ ['"'])

end LiveRooms.Text
