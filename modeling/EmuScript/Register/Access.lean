import EmuScript.Host.Action
import EmuScript.Register.Name

/-!
# Register access

Registers are read and written by number or by name. Numbers go to the emulator
unchecked; only names are validated, before any call is made.
-/

set_option autoImplicit false

namespace EmuScript.Register

open Numeric

variable {κ : Type}

def readGeneral (index : UInt32) : Action κ UInt32 :=
  Action.ask (.register (.gpr index))

def writeGeneral (index value : UInt32) : Action κ Unit :=
  Action.ask (.register (.setGpr index value))

def readFloat (index : UInt32) : Action κ Single :=
  Action.ask (.register (.fpr index))

def writeFloat (index : UInt32) (value : Single) : Action κ Unit :=
  Action.ask (.register (.setFpr index value))

def readProgramCounter : Action κ UInt32 :=
  Action.ask (.register .pc)

def writeProgramCounter (value : UInt32) : Action κ Unit :=
  Action.ask (.register (.setPc value))

def readGeneralNamed (name : String) : Action κ UInt32 := do
  match ← Action.getOrThrow (target? name) (.unknownRegister name) with
  | .general index => readGeneral index
  | .programCounter => readProgramCounter

def writeGeneralNamed (name : String) (value : UInt32) : Action κ Unit := do
  match ← Action.getOrThrow (target? name) (.unknownRegister name) with
  | .general index => writeGeneral index value
  | .programCounter => writeProgramCounter value

def readFloatNamed (name : String) : Action κ Single := do
  readFloat (← Action.getOrThrow (floatIndex? name) (.unknownRegister name))

def writeFloatNamed (name : String) (value : Single) : Action κ Unit := do
  writeFloat (← Action.getOrThrow (floatIndex? name) (.unknownRegister name)) value

end EmuScript.Register
