import EmuScript.Emulator.Basic
import EmuScript.Scenario.Reader
import EmuScript.Scenario.Writer

/-!
# Control of the model emulator

Steps by which a scenario sets up the emulator itself, past the library.
-/

set_option autoImplicit false

namespace EmuScript.Scenario

/-- The configuration with the fields that are given in place of its own. -/
def configWith (config : SessionConfig) (json : Json) : Decoder SessionConfig := do
  return {
    socketBufferSize := (← optional "socket_buffer_size" asSize json).getD config.socketBufferSize
    connectHost := (← optional "connect_host" asString json).getD config.connectHost
    connectPort := (← optional "connect_port" asPort json).getD config.connectPort
    hexDigits := (← optional "hex_digits" asSize json).getD config.hexDigits
    reportErrorsToConsole :=
      (← optional "report_errors_to_console" asBool json).getD config.reportErrorsToConsole }

def asConfig (json : Json) : Decoder SessionConfig :=
  configWith {} json

def asFailure (step : Json) : Decoder Emulator.Failure := do
  return {
    primitive := ← field "call" asString step
    passes := (← optional "after" asSize step).getD 0 |>.toNat
    message := (← optional "message" asString step).getD "injected failure" }

/-- Control of a model emulator, whatever its callbacks are. -/
def control {κ : Type} (step : Json) (emulator : Emulator κ) :
    Decoder (Option (Json × Emulator κ)) := do
  match ← field "do" asString step with
  | "host.poke" =>
      let space ← field "space" asSpace step
      let memory := (emulator.memory space).write (← field "address" asWord step)
        (← field "bytes" asBytes step)
      return some (.null, emulator.setMemory space memory)
  | "host.peek" =>
      let memory := emulator.memory (← field "space" asSpace step)
      let bytes := memory.read (← field "address" asWord step) (← field "len" asSize step).toNat
      return some (ofBytes bytes, emulator)
  | "host.heal" => return some (.null, { emulator with failures := [] })
  | "host.queue_ints" =>
      let values ← field "values" (asList asInt64) step
      return some (.null, { emulator with queuedInts := emulator.queuedInts ++ values })
  | "host.queue_floats" =>
      let values ← field "values" (asList asDouble) step
      return some (.null, { emulator with queuedFloats := emulator.queuedFloats ++ values })
  | "host.next_hook" =>
      return some (.null, { emulator with nextHook := some ⟨← field "id" asWord step⟩ })
  | "host.hooks" =>
      return some (.array (emulator.hooks.map fun hook =>
        .array [ofWord hook.id.value, .string hook.kind.name, ofWord hook.tag]), emulator)
  | _ => return none

end EmuScript.Scenario
