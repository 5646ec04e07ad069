import EmuScript.Json.Value

/-!
# Reading JSON text

A reader takes characters from the front of a list and answers what they stand
for and the rest. Nesting is bounded by the number of characters, so the bound
is never felt.
-/

set_option autoImplicit false

namespace EmuScript.Json

open Numeric

def isBlank (char : Char) : Bool :=
  char = ' ' || char = '\t' || char = '\n' || char = '\r'

def skipBlanks (chars : List Char) : List Char :=
  chars.dropWhile isBlank

def digitValue? (char : Char) : Option Nat :=
  if char.isDigit then some (char.toNat - 48) else none

def hexValue? (char : Char) : Option Nat :=
  if char.isDigit then some (char.toNat - 48)
  else if 'a' ≤ char && char ≤ 'f' then some (char.toNat - 87)
  else if 'A' ≤ char && char ≤ 'F' then some (char.toNat - 55)
  else none

/-- The number that a run of digits stands for, the count of the digits, and
the rest. -/
def readDigits : List Char → Nat → Nat → Nat × Nat × List Char
  | [], value, count => (value, count, [])
  | char :: rest, value, count =>
      match digitValue? char with
      | some digit => readDigits rest (value * 10 + digit) (count + 1)
      | none => (value, count, char :: rest)

def readCodeUnit : List Char → Option (Nat × List Char)
  | a :: b :: c :: d :: rest => do
      return ((((← hexValue? a) * 16 + (← hexValue? b)) * 16 + (← hexValue? c)) * 16
        + (← hexValue? d), rest)
  | _ => none

def isHighSurrogate (unit : Nat) : Bool :=
  0xD800 ≤ unit && unit < 0xDC00

def isLowSurrogate (unit : Nat) : Bool :=
  0xDC00 ≤ unit && unit < 0xE000

/-- The character that a numeric escape stands for; two escapes may make one
character. -/
def readEscapedCode (chars : List Char) : Option (Char × List Char) := do
  let (unit, rest) ← readCodeUnit chars
  if isHighSurrogate unit then
    match rest with
    | '\\' :: 'u' :: rest =>
        let (low, rest) ← readCodeUnit rest
        if isLowSurrogate low then
          return (Char.ofNat (0x10000 + (unit - 0xD800) * 0x400 + (low - 0xDC00)), rest)
        else none
    | _ => none
  else if isLowSurrogate unit then none
  else return (Char.ofNat unit, rest)

/-- What a backslash and a letter other than `u` stand for. -/
def escapedChar? : Char → Option Char
  | '"' => some '"'
  | '\\' => some '\\'
  | '/' => some '/'
  | 'b' => some '\x08'
  | 'f' => some '\x0c'
  | 'n' => some '\n'
  | 'r' => some '\r'
  | 't' => some '\t'
  | _ => none

/-- The characters of a string after its opening quote, most recent first, and
the rest after the closing quote. Control characters must be escaped. -/
def readStringBody : Nat → List Char → List Char → Option (List Char × List Char)
  | 0, _, _ => none
  | fuel + 1, chars, read =>
      match chars with
      | '"' :: rest => some (read, rest)
      | '\\' :: 'u' :: rest => do
          let (char, rest) ← readEscapedCode rest
          readStringBody fuel rest (char :: read)
      | '\\' :: letter :: rest => do
          let char ← escapedChar? letter
          readStringBody fuel rest (char :: read)
      | char :: rest =>
          if char.toNat < 0x20 then none else readStringBody fuel rest (char :: read)
      | [] => none

def readString (fuel : Nat) (chars : List Char) : Option (String × List Char) := do
  let (read, rest) ← readStringBody fuel chars []
  return (String.ofList read.reverse, rest)

/-- A run of one digit or more, after digits that stand for `value`. -/
def readSomeDigits (chars : List Char) (value : Nat) : Option (Nat × Nat × List Char) :=
  let (value, count, rest) := readDigits chars value 0
  if count = 0 then none else some (value, count, rest)

/-- The part of a number before its point. No other digit follows a zero at its
front. -/
def readWhole : List Char → Option (Nat × List Char)
  | '0' :: rest => if rest.head?.any Char.isDigit then none else some (0, rest)
  | chars => do
      let (whole, _, rest) ← readSomeDigits chars 0
      return (whole, rest)

/-- The exponent after the mark `e`. -/
def readExponent (chars : List Char) : Option (Int × List Char) := do
  match chars with
  | '-' :: rest =>
      let (value, _, rest) ← readSomeDigits rest 0
      return (-(value : Int), rest)
  | '+' :: rest =>
      let (value, _, rest) ← readSomeDigits rest 0
      return ((value : Int), rest)
  | rest =>
      let (value, _, rest) ← readSomeDigits rest 0
      return ((value : Int), rest)

/-- The exponent after a fraction, which may be missing. -/
def readScale : List Char → Option (Int × List Char)
  | 'e' :: rest | 'E' :: rest => readExponent rest
  | rest => some (0, rest)

/-- A number after its sign. A zero with a minus sign is no integer, because
integers have no such zero. -/
def readMagnitude (negative : Bool) (chars : List Char) : Option (Json × List Char) := do
  let (whole, rest) ← readWhole chars
  match rest with
  | '.' :: rest =>
      let (digits, places, rest) ← readSomeDigits rest whole
      let (exponent, rest) ← readScale rest
      return (.real negative ⟨digits, exponent - (places : Int)⟩, rest)
  | 'e' :: rest | 'E' :: rest =>
      let (exponent, rest) ← readExponent rest
      return (.real negative ⟨whole, exponent⟩, rest)
  | rest =>
      if negative then
        if whole = 0 then return (.real true ⟨0, 0⟩, rest)
        else return (.integer (-(whole : Int)), rest)
      else return (.integer whole, rest)

mutual

def readValue : Nat → List Char → Option (Json × List Char)
  | 0, _ => none
  | fuel + 1, chars =>
      match skipBlanks chars with
      | 'n' :: 'u' :: 'l' :: 'l' :: rest => some (.null, rest)
      | 't' :: 'r' :: 'u' :: 'e' :: rest => some (.bool true, rest)
      | 'f' :: 'a' :: 'l' :: 's' :: 'e' :: rest => some (.bool false, rest)
      | '"' :: rest => do
          let (text, rest) ← readString (fuel + 1) rest
          return (.string text, rest)
      | '[' :: rest => do
          match skipBlanks rest with
          | ']' :: rest => return (.array [], rest)
          | rest =>
              let (elements, rest) ← readElements fuel rest
              return (.array elements, rest)
      | '\x7b' :: rest => do
          match skipBlanks rest with
          | '\x7d' :: rest => return (.object [], rest)
          | rest =>
              let (members, rest) ← readMembers fuel rest []
              return (.object members, rest)
      | '-' :: rest => readMagnitude true rest
      | rest => readMagnitude false rest

def readElements : Nat → List Char → Option (List Json × List Char)
  | 0, _ => none
  | fuel + 1, chars => do
      let (element, rest) ← readValue fuel chars
      match skipBlanks rest with
      | ',' :: rest =>
          let (elements, rest) ← readElements fuel rest
          return (element :: elements, rest)
      | ']' :: rest => return ([element], rest)
      | _ => none

/-- The members of an object up to its closing brace. Of members with one key
the last counts. -/
def readMembers : Nat → List Char → List (String × Json) →
    Option (List (String × Json) × List Char)
  | 0, _, _ => none
  | fuel + 1, chars, read => do
      match skipBlanks chars with
      | '"' :: rest =>
          let (key, rest) ← readString (fuel + 1) rest
          match skipBlanks rest with
          | ':' :: rest =>
              let (value, rest) ← readValue fuel rest
              let read := insertMember key value read
              match skipBlanks rest with
              | ',' :: rest => readMembers fuel rest read
              | '\x7d' :: rest => return (read, rest)
              | _ => none
          | _ => none
      | _ => none

end

def ofText? (text : String) : Option Json := do
  let chars := text.toList
  let (value, rest) ← readValue (chars.length + 2) chars
  match skipBlanks rest with
  | [] => return value
  | _ => none

end EmuScript.Json
