import EmuScript.Register.Access
import EmuScript.Text.Hex

/-!
# System and debugger

Control of the emulated machine as a whole, and of the debugger's windows.
-/

set_option autoImplicit false

namespace EmuScript

variable {κ : Type}

namespace System

def pause : Action κ Unit :=
  Action.ask (.system .pause)

def resume : Action κ Unit :=
  Action.ask (.system .resume)

def reset : Action κ Unit :=
  Action.ask (.system .reset)

def hardReset : Action κ Unit :=
  Action.ask (.system .hardReset)

def saveState : Action κ Unit :=
  Action.ask (.system .saveState)

def loadState : Action κ Unit :=
  Action.ask (.system .loadState)

def saveSlot : Action κ UInt32 :=
  Action.ask (.system .saveSlot)

def setSaveSlot (slot : UInt32) : Action κ Unit :=
  Action.ask (.system (.setSaveSlot slot))

def generateBitmap : Action κ Unit :=
  Action.ask (.system .generateBitmap)

end System

namespace Debugger

def showMemory (address : UInt32) : Action κ Unit :=
  Action.ask (.system (.showMemory address))

def showCommands (address : UInt32) : Action κ Unit :=
  Action.ask (.system (.showCommands address))

/-- Shows the instructions at the program counter and pauses the machine. -/
def breakHere : Action κ Unit := do
  let address ← Register.readProgramCounter
  showCommands address
  System.pause
  Action.log .debug s!"breakhere at {Text.hexAddress address}"

end Debugger

end EmuScript
