import EmuScript.Hook.Kind
import EmuScript.Thread.State

/-!
# Errors

What can go wrong in a script operation, with the message that the script
sees. A failure of the emulator is passed on as it came.
-/

set_option autoImplicit false

namespace EmuScript

structure HostError where
  call : String
  message : String
  deriving DecidableEq

def HostError.text (error : HostError) : String :=
  s!"host call `{error.call}` failed: {error.message}"

inductive ScriptError where
  | invalidState (operation : String) (state : ThreadState)
  | unrecognizedType (tag : String)
  | unknownRegister (name : String)
  | unknownField (name : String)
  | duplicateField (name : String)
  | propertyRedefined (name : String)
  | unknownCallback (id : CallbackId)
  | unknownHookKind (name : String)
  | host (error : HostError)
  deriving DecidableEq

inductive ErrorClass where
  | invalidState | unrecognizedType | hostCallFailure | lookup
  deriving DecidableEq

namespace ScriptError

def message : ScriptError → String
  | invalidState operation state =>
      s!"invalid state: cannot {operation} a thread that is {state.name}"
  | unrecognizedType tag => s!"unrecognized type `{tag}`"
  | unknownRegister name => s!"unknown register `{name}`"
  | unknownField name => s!"unknown field `{name}`"
  | duplicateField name => s!"duplicate field `{name}` in struct definition"
  | propertyRedefined name => s!"property `{name}` is already bound"
  | unknownCallback id => s!"no callback registered with id {id.value.toNat}"
  | unknownHookKind name => s!"unknown hook kind `{name}`"
  | host error => error.text

/-- Names that no table knows are all failed lookups. -/
def errorClass : ScriptError → ErrorClass
  | invalidState _ _ => .invalidState
  | unrecognizedType _ => .unrecognizedType
  | host _ => .hostCallFailure
  | unknownRegister _ | unknownField _ | duplicateField _ | propertyRedefined _
  | unknownCallback _ | unknownHookKind _ => .lookup

end ScriptError

end EmuScript
