import EmuScript.Numeric.Shortest

/-!
# JSON values

A number is kept as it was written: an integer, or a decimal with a fraction or
an exponent. The two are told apart because integer fields of configuration
data accept only the first kind.
-/

set_option autoImplicit false

namespace EmuScript

open Numeric

inductive Json where
  | null
  | bool (value : Bool)
  | integer (value : Int)
  | real (negative : Bool) (magnitude : Decimal)
  | string (value : String)
  | array (elements : List Json)
  /-- Members in the order in which they were written, with different keys. -/
  | object (members : List (String × Json))

namespace Json

def member? (key : String) : Json → Option Json
  | object members => members.lookup key
  | _ => none

/-- A number as scripts see it: the nearest double. -/
def toDouble? : Json → Option Double
  | integer value => some (Binary.ofInt value)
  | real negative magnitude => some (magnitude.toBinary .double negative)
  | _ => none

def insertMember (key : String) (value : Json) (members : List (String × Json)) :
    List (String × Json) :=
  members.filter (fun member => member.1 ≠ key) ++ [(key, value)]

mutual

/-- The number of values and keys in a value, more than its depth. -/
def size : Json → Nat
  | array elements => sizeOfElements elements + 1
  | object members => sizeOfMembers members + 1
  | null | bool _ | integer _ | real _ _ | string _ => 1

def sizeOfElements : List Json → Nat
  | [] => 0
  | element :: rest => element.size + sizeOfElements rest

def sizeOfMembers : List (String × Json) → Nat
  | [] => 0
  | (_, value) :: rest => value.size + sizeOfMembers rest + 1

end

end Json

end EmuScript
