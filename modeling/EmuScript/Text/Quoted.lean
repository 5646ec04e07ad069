import EmuScript.Text.Extending
import EmuScript.Text.Unassigned

/-!
# Quoted text

Diagnostic output shows a string between quotes. Quotes, backslashes and the
common control characters are escaped by a letter, other characters that have
no visible form of their own by their code.
-/

set_option autoImplicit false

namespace EmuScript.Text

/-- Control and formatting characters, private characters, separators other than
the plain space, and letters that fill a place without being seen. -/
def unseenCodes : CodeRanges :=
  [(0x0, 0x1F), (0x7F, 0xA0), (0xAD, 0xAD), (0x600, 0x605), (0x61C, 0x61C), (0x6DD, 0x6DD),
    (0x70F, 0x70F), (0x890, 0x891), (0x8E2, 0x8E2), (0x115F, 0x1160), (0x1680, 0x1680),
    (0x180E, 0x180E), (0x2000, 0x200F), (0x2028, 0x202F), (0x205F, 0x2064), (0x2066, 0x206F),
    (0x3000, 0x3000), (0x3164, 0x3164), (0xE000, 0xF8FF), (0xFEFF, 0xFEFF), (0xFFA0, 0xFFA0),
    (0xFFF9, 0xFFFB), (0x110BD, 0x110BD), (0x110CD, 0x110CD), (0x13430, 0x1343F),
    (0x1BCA0, 0x1BCA3), (0x1D173, 0x1D17A), (0xE0001, 0xE0001), (0xE0020, 0xE007F),
    (0xF0000, 0xFFFFD), (0x100000, 0x10FFFD)]

/-- A character shows itself if it is assigned, can be seen, and does not extend
the character before it. Of the separators, only the plain space does. -/
def isVisible (char : Char) : Bool :=
  !extendingMarks.contains char && !unassignedCodes.contains char && !unseenCodes.contains char

/-- The code of a character in lower-case base sixteen, without leading zeros. -/
def codeDigits (char : Char) : List Char :=
  Nat.toDigits 16 char.toNat

/-- The characters that stand for one character between quotes. -/
def escape (char : Char) : List Char :=
  if char = '"' then ['\\', '"']
  else if char = '\\' then ['\\', '\\']
  else if char = '\n' then ['\\', 'n']
  else if char = '\r' then ['\\', 'r']
  else if char = '\t' then ['\\', 't']
  else if char = '\x00' then ['\\', '0']
  else if isVisible char then [char]
  else '\\' :: 'u' :: '\x7b' :: codeDigits char ++ ['\x7d']

/-- The text between quotes with every character in its escaped form. -/
def quoted (text : String) : String :=
  String.ofList ('"' :: text.toList.flatMap escape ++ ['"'])

end EmuScript.Text
