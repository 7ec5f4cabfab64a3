import ResourceQuery.Unicode.Extender
import ResourceQuery.Unicode.Invisible

/-! Quoted text for messages. A quoted text stands on one line and shows every character it holds:
what has no glyph of its own, or would merge with its neighbour, is written as an escape. -/

namespace ResourceQuery.Text

/-- The code point in lower-case hexadecimal, without leading zeros. -/
def hexDigits (code : Nat) : List Char :=
  Nat.toDigits 16 code

/-- Whether a character must not stand in quoted text as itself. The plain space may. -/
def needsEscape (c : Char) : Bool :=
  Unicode.isExtender c || (Unicode.isInvisible c && c != ' ')

/-- One character as it is written between quotes. -/
def escaped (c : Char) : List Char :=
  if c = '\x00' then ['\\', '0']
  else if c = '\t' then ['\\', 't']
  else if c = '\r' then ['\\', 'r']
  else if c = '\n' then ['\\', 'n']
  else if c = '\\' then ['\\', '\\']
  else if c = '"' then ['\\', '"']
  else if needsEscape c then ['\\', 'u', '\x7b'] ++ hexDigits c.toNat ++ ['\x7d']
  else [c]

/-- The text between double quotes, with escapes where they are needed. -/
def quoted (text : String) : String :=
  String.ofList (['"'] ++ text.toList.flatMap escaped ++ ['"'])

end ResourceQuery.Text
