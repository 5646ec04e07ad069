import EmuScript.Numeric.Shortest

/-!
# Thrown values

A function of the script, or a primitive of the emulator, may throw any value.
The message of an error object and a string speak for themselves; other values
are shown in a diagnostic form.
-/

set_option autoImplicit false

namespace EmuScript.Engine

open Numeric

inductive Thrown where
  | error (message : String)
  | text (value : String)
  | number (value : Double)
  | bool (value : Bool)
  | null
  | undefined
  deriving DecidableEq

def Thrown.message : Thrown → String
  | error message => message
  | text value => value
  | number value => "JsValue(" ++ value.text ++ ")"
  | bool value => "JsValue(" ++ toString value ++ ")"
  | null => "JsValue(null)"
  | undefined => "JsValue(undefined)"

end EmuScript.Engine
