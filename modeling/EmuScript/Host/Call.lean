import EmuScript.Error
import EmuScript.Memory.Space
import EmuScript.Numeric.Binary
import EmuScript.Socket.Basic

/-!
# Host calls

Everything the library can ask of an emulator, grouped by concern. Each call
has the type of its answer, and the name of the primitive that carries it out.
Callbacks and thread procedures that are handed over are of any type `κ`.
-/

set_option autoImplicit false

namespace EmuScript

open Numeric

inductive RegisterCall where
  | gpr (index : UInt32)
  | setGpr (index value : UInt32)
  | fpr (index : UInt32)
  | setFpr (index : UInt32) (value : Single)
  | pc
  | setPc (value : UInt32)
  deriving DecidableEq

namespace RegisterCall

abbrev Answer : RegisterCall → Type
  | gpr _ | pc => UInt32
  | fpr _ => Single
  | setGpr _ _ | setFpr _ _ | setPc _ => Unit

def primitive : RegisterCall → String
  | gpr _ => "getGPRVal"
  | setGpr _ _ => "setGPRVal"
  | fpr _ => "getFPRVal"
  | setFpr _ _ => "setFPRVal"
  | pc => "getPCVal"
  | setPc _ => "setPCVal"

end RegisterCall

inductive MemoryCall where
  | readInt (space : MemorySpace) (address bits : UInt32) (signed : Bool)
  | writeInt (space : MemorySpace) (address bits : UInt32) (value : Int64)
  | readFloat (space : MemorySpace) (address : UInt32) (double : Bool)
  | writeFloat (space : MemorySpace) (address : UInt32) (value : Double) (double : Bool)
  | readBlock (space : MemorySpace) (address : UInt32) (size : UInt64)
  | writeBlock (space : MemorySpace) (address : UInt32) (data : Bytes)
  | readString (space : MemorySpace) (address : UInt32)
  | writeString (space : MemorySpace) (address : UInt32) (text : String)
  deriving DecidableEq

namespace MemoryCall

abbrev Answer : MemoryCall → Type
  | readInt _ _ _ _ => Int64
  | readFloat _ _ _ => Double
  | readBlock _ _ _ => Bytes
  | readString _ _ => String
  | writeInt _ _ _ _ | writeFloat _ _ _ _ | writeBlock _ _ _ | writeString _ _ _ => Unit

def space : MemoryCall → MemorySpace
  | readInt space _ _ _ | writeInt space _ _ _ | readFloat space _ _ | writeFloat space _ _ _
  | readBlock space _ _ | writeBlock space _ _ | readString space _ | writeString space _ _ =>
      space

/-- The name of a space within the names of primitives. -/
def spaceMark : MemorySpace → String
  | .main => "RDRAM"
  | .rom => "ROM"

def primitive : MemoryCall → String
  | readInt space _ _ _ => "get" ++ spaceMark space ++ "Int"
  | writeInt space _ _ _ => "set" ++ spaceMark space ++ "Int"
  | readFloat space _ _ => "get" ++ spaceMark space ++ "Float"
  | writeFloat space _ _ _ => "set" ++ spaceMark space ++ "Float"
  | readBlock space _ _ => "get" ++ spaceMark space ++ "Block"
  | writeBlock space _ _ => "set" ++ spaceMark space ++ "Block"
  | readString space _ => "get" ++ spaceMark space ++ "String"
  | writeString space _ _ => "set" ++ spaceMark space ++ "String"

end MemoryCall

inductive HookCall (κ : Type) where
  | install (kind : HookKind) (tag : UInt32) (callback : κ)
  | remove (id : HostHookId)
  deriving DecidableEq

namespace HookCall

variable {κ : Type}

abbrev Answer : HookCall κ → Type
  | install _ _ _ => HostHookId
  | remove _ => Unit

def primitive : HookCall κ → String
  | install _ _ _ => "addCallback"
  | remove _ => "removeCallback"

end HookCall

inductive ConsoleCall where
  | print (text : String)
  | clear
  | messageBox (text caption : String)
  deriving DecidableEq

def ConsoleCall.primitive : ConsoleCall → String
  | print _ => "consolePrint"
  | clear => "consoleClear"
  | messageBox _ _ => "msgBox"

/-- Calls that steer the emulated machine and its debugger. -/
inductive SystemCall where
  | pause
  | resume
  | reset
  | hardReset
  | saveState
  | loadState
  | setSaveSlot (slot : UInt32)
  | saveSlot
  | generateBitmap
  | showMemory (address : UInt32)
  | showCommands (address : UInt32)
  deriving DecidableEq

namespace SystemCall

abbrev Answer : SystemCall → Type
  | saveSlot => UInt32
  | pause | resume | reset | hardReset | saveState | loadState | setSaveSlot _
  | generateBitmap | showMemory _ | showCommands _ => Unit

def primitive : SystemCall → String
  | pause => "pause"
  | resume => "resume"
  | reset => "reset"
  | hardReset => "hardReset"
  | saveState => "saveState"
  | loadState => "loadState"
  | setSaveSlot _ => "setSaveSlot"
  | saveSlot => "getSaveSlot"
  | generateBitmap => "generateBitmap"
  | showMemory _ => "showMemory"
  | showCommands _ => "showCommands"

end SystemCall

/-- Calls on sockets. A connect, accept, read or write that the emulator takes
completes later. -/
inductive SocketCall where
  | create
  | connect (fd : SocketFd) (host : String) (port : UInt16)
  | listen (fd : SocketFd) (port : UInt16)
  | accept (fd : SocketFd)
  | read (fd : SocketFd) (size : UInt64)
  | write (fd : SocketFd) (data : Bytes)
  | close (fd : SocketFd)
  deriving DecidableEq

namespace SocketCall

abbrev Answer : SocketCall → Type
  | create => SocketFd
  | connect _ _ _ | listen _ _ | accept _ | read _ _ | write _ _ | close _ => Unit

def primitive : SocketCall → String
  | create => "sockCreate"
  | connect _ _ _ => "sockConnect"
  | listen _ _ => "sockListen"
  | accept _ => "sockAccept"
  | read _ _ => "read"
  | write _ _ => "write"
  | close _ => "close"

end SocketCall

/-- The number under which the emulator knows a thread. -/
structure ThreadHandle where
  value : UInt64
  deriving DecidableEq

inductive ThreadCall (κ : Type) where
  | create (procedure : κ)
  | suspend (handle : ThreadHandle)
  | resume (handle : ThreadHandle)
  | terminate (handle : ThreadHandle)
  | sleep (milliseconds : UInt32)
  deriving DecidableEq

namespace ThreadCall

variable {κ : Type}

abbrev Answer : ThreadCall κ → Type
  | create _ => ThreadHandle
  | suspend _ | resume _ | terminate _ | sleep _ => Unit

def primitive : ThreadCall κ → String
  | create _ => "createThread"
  | suspend _ => "suspendThread"
  | resume _ => "resumeThread"
  | terminate _ => "terminateThread"
  | sleep _ => "sleep"

end ThreadCall

inductive HostCall (κ : Type) where
  | register (call : RegisterCall)
  | memory (call : MemoryCall)
  | hook (call : HookCall κ)
  | console (call : ConsoleCall)
  | system (call : SystemCall)
  | socket (call : SocketCall)
  | thread (call : ThreadCall κ)
  deriving DecidableEq

namespace HostCall

variable {κ : Type}

abbrev Answer : HostCall κ → Type
  | register call => call.Answer
  | memory call => call.Answer
  | hook call => call.Answer
  | console _ => Unit
  | system call => call.Answer
  | socket call => call.Answer
  | thread call => call.Answer

def primitive : HostCall κ → String
  | register call => call.primitive
  | memory call => call.primitive
  | hook call => call.primitive
  | console call => call.primitive
  | system call => call.primitive
  | socket call => call.primitive
  | thread call => call.primitive

abbrev Reply (call : HostCall κ) : Type :=
  Except HostError call.Answer

end HostCall

end EmuScript
