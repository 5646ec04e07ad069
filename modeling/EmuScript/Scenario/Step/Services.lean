import EmuScript.Scenario.Control
import EmuScript.Scenario.World
import EmuScript.System

/-!
# Steps on the console, the machine and the session itself
-/

set_option autoImplicit false

namespace EmuScript.Scenario

def asHexNumber (step : Json) : Decoder Text.HexNumber := do
  match ← field "type" asString step with
  | "u8" => return .byte (← field "value" (asScalar .u8) step)
  | "u16" => return .halfword (← field "value" (asScalar .u16) step)
  | "u32" => return .word (← field "value" (asScalar .u32) step)
  | "s32" => return .signedWord (← field "value" (asScalar .s32) step)
  | _ => .error "type expected"

/-- The pattern of a number that has a hexadecimal text. -/
def asHexPattern (step : Json) : Decoder UInt32 :=
  return (← asHexNumber step).pattern

def serviceStep (step : Json) (what : String) : Run Answer := do
  let address := field "address" asWord step
  match what with
  | "console.print" => quiet (Console.print (← field "text" asString step))
  | "console.log" => quiet (Console.log (← field "args" asParts step))
  | "console.clear" => quiet Console.clear
  | "report_error" => quiet (Console.reportError (← field "of" asError step))
  | "alert" =>
      quiet (Console.alert (← field "text" asString step) (← optional "caption" asString step))
  | "system.pause" => quiet System.pause
  | "system.resume" => quiet System.resume
  | "system.reset" => quiet System.reset
  | "system.hardreset" => quiet System.hardReset
  | "system.savestate" => quiet System.saveState
  | "system.loadstate" => quiet System.loadState
  | "system.generatebitmap" => quiet System.generateBitmap
  | "system.saveslot" => act ofWord System.saveSlot
  | "system.set_saveslot" => quiet (System.setSaveSlot (← field "slot" asWord step))
  | "debug.showmemory" => quiet (Debugger.showMemory (← address))
  | "debug.showcommands" => quiet (Debugger.showCommands (← address))
  | "debug.breakhere" => quiet Debugger.breakHere
  | "config" => done (Json.ofConfig (← get).session.config)
  | "hex" => done (.string ((← get).session.hex (← asHexPattern step)))
  | "fail" => return .error (← field "of" asError step)
  | "reopen" =>
      let config := (← optional "config" asConfig step).getD {}
      modify fun world => { world with session := { config } }
      done (.object [("hooks", ofNat (← get).host.emulator.hooks.length)])
  | other => throw ("unknown step " ++ other)

end EmuScript.Scenario
