import EmuScript.Json.Value

/-!
# Writing JSON text

The text has no blanks. Only the characters that must be escaped are escaped.
-/

set_option autoImplicit false

namespace EmuScript.Json

def escapeDigit (value : Nat) : Char :=
  if value < 10 then Char.ofNat (48 + value) else Char.ofNat (87 + value)

/-- The letter after the backslash where a character is written as these two. -/
def escapeLetter? : Char → Option Char
  | '"' => some '"'
  | '\\' => some '\\'
  | '\x08' => some 'b'
  | '\x0c' => some 'f'
  | '\n' => some 'n'
  | '\r' => some 'r'
  | '\t' => some 't'
  | _ => none

def writeChar (text : String) (char : Char) : String :=
  match escapeLetter? char with
  | some letter => (text.push '\\').push letter
  | none =>
      if char.toNat < 0x20 then
        ((text ++ "\\u00").push (escapeDigit (char.toNat / 16))).push
          (escapeDigit (char.toNat % 16))
      else text.push char

def writeString (text value : String) : String :=
  (value.toList.foldl writeChar (text.push '"')).push '"'

mutual

def write (text : String) : Json → String
  | null => text ++ "null"
  | bool value => text ++ toString value
  | integer value => text ++ toString value
  | real negative magnitude =>
      (if negative then text.push '-' else text) ++ toString magnitude.digits ++ "e"
        ++ toString magnitude.exponent
  | string value => writeString text value
  | array elements => (writeElements (text.push '[') true elements).push ']'
  | object members => (writeMembers (text.push '\x7b') true members).push '\x7d'

def writeElements (text : String) (first : Bool) : List Json → String
  | [] => text
  | element :: rest =>
      writeElements (write (if first then text else text.push ',') element) false rest

def writeMembers (text : String) (first : Bool) : List (String × Json) → String
  | [] => text
  | (key, value) :: rest =>
      let text := if first then text else text.push ','
      writeMembers (write ((writeString text key).push ':') value) false rest

end

def text (value : Json) : String :=
  write "" value

end EmuScript.Json
