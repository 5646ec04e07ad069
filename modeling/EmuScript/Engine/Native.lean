import EmuScript.Engine.Thrown
import EmuScript.Host.Action

/-!
# Native calls

A script engine reaches the emulator through a table of native functions. They
take and return the numbers of the engine, which are doubles, they throw instead
of failing, and requests of sockets take a function to be called on completion.
Such a function may be called once; a ticket stands for it.
-/

set_option autoImplicit false

namespace EmuScript.Engine

open Numeric

/-- The functions that the library makes of a script function `φ`. -/
inductive Closure (φ : Type) where
  | immediate (callback : φ)
  /-- Queues a call of the script function until no session call is going on. -/
  | deferred (callback : φ)
  | silent
  /-- Calls the script function kept under a key in the table of procedures. -/
  | procedure (key : UInt32)
  deriving DecidableEq

/-- What the completion of a request reports on. -/
inductive Request where
  | connect (fd : SocketFd)
  | accept (server : SocketFd)
  | read (fd : SocketFd)
  | write (fd : SocketFd)
  deriving DecidableEq

/-- The place that a socket or a server has under its descriptor. -/
inductive Endpoint where
  | socket (fd : SocketFd)
  | server (fd : SocketFd)
  deriving DecidableEq

/-- Where the completion of a request is delivered. -/
def Request.endpoint : Request → Endpoint
  | connect fd | read fd | write fd => .socket fd
  | accept server => .server server

/-- What the completion of a request brings with it. -/
abbrev Request.Payload : Request → Type
  | connect _ | write _ => Unit
  | accept _ => SocketFd
  | read _ => Option Bytes

structure Ticket where
  serial : Nat
  request : Request
  deriving DecidableEq

/-- Memory calls. Integers, blocks and strings are written to main memory only. -/
inductive NativeMemoryCall where
  | readNumber (space : MemorySpace) (address bits : UInt32) (signed : Bool)
  | writeNumber (address bits : UInt32) (value : Double)
  | readFloat (space : MemorySpace) (address : UInt32) (double : Bool)
  | writeFloat (space : MemorySpace) (address : UInt32) (value : Double) (double : Bool)
  | readBlock (space : MemorySpace) (address size : UInt32)
  | writeBlock (address : UInt32) (data : Bytes)
  | readString (space : MemorySpace) (address : UInt32)
  | writeString (address : UInt32) (text : String)
  deriving DecidableEq

namespace NativeMemoryCall

abbrev Answer : NativeMemoryCall → Type
  | readNumber _ _ _ _ | readFloat _ _ _ => Double
  | readBlock _ _ _ => Bytes
  | readString _ _ => String
  | writeNumber _ _ _ | writeFloat _ _ _ _ | writeBlock _ _ | writeString _ _ => Unit

def primitive : NativeMemoryCall → String
  | readNumber space _ _ _ => "get" ++ MemoryCall.spaceMark space ++ "Int"
  | writeNumber _ _ _ => "setRDRAMInt"
  | readFloat space _ _ => "get" ++ MemoryCall.spaceMark space ++ "Float"
  | writeFloat space _ _ _ => "set" ++ MemoryCall.spaceMark space ++ "Float"
  | readBlock space _ _ => "get" ++ MemoryCall.spaceMark space ++ "Block"
  | writeBlock _ _ => "setRDRAMBlock"
  | readString space _ => "get" ++ MemoryCall.spaceMark space ++ "String"
  | writeString _ _ => "setRDRAMString"

end NativeMemoryCall

inductive NativeSocketCall where
  | create
  | connect (fd : SocketFd) (host : String) (port : UInt16) (done : Ticket)
  | listen (fd : SocketFd) (port : UInt16)
  | accept (fd : SocketFd) (done : Ticket)
  | read (fd : SocketFd) (size : UInt32) (done : Ticket)
  | write (fd : SocketFd) (data : Bytes) (done : Ticket)
  | close (fd : SocketFd)
  deriving DecidableEq

namespace NativeSocketCall

abbrev Answer : NativeSocketCall → Type
  | create => SocketFd
  | connect _ _ _ _ | listen _ _ | accept _ _ | read _ _ _ | write _ _ _ | close _ => Unit

def primitive : NativeSocketCall → String
  | create => "sockCreate"
  | connect _ _ _ _ => "sockConnect"
  | listen _ _ => "sockListen"
  | accept _ _ => "sockAccept"
  | read _ _ _ => "read"
  | write _ _ _ => "write"
  | close _ => "close"

def ticket? : NativeSocketCall → Option Ticket
  | connect _ _ _ done | accept _ done | read _ _ done | write _ _ done => some done
  | create | listen _ _ | close _ => none

end NativeSocketCall

inductive NativeThreadCall (φ : Type) where
  | create (procedure : Closure φ)
  | suspend (handle : Double)
  | resume (handle : Double)
  | terminate (handle : Double)
  | sleep (milliseconds : UInt32)
  deriving DecidableEq

namespace NativeThreadCall

variable {φ : Type}

abbrev Answer : NativeThreadCall φ → Type
  | create _ => Double
  | suspend _ | resume _ | terminate _ | sleep _ => Unit

def primitive : NativeThreadCall φ → String
  | create _ => "createThread"
  | suspend _ => "suspendThread"
  | resume _ => "resumeThread"
  | terminate _ => "terminateThread"
  | sleep _ => "sleep"

end NativeThreadCall

inductive NativeCall (φ : Type) where
  | register (call : RegisterCall)
  | memory (call : NativeMemoryCall)
  | hook (call : HookCall (Closure φ))
  | console (call : ConsoleCall)
  | system (call : SystemCall)
  | socket (call : NativeSocketCall)
  | thread (call : NativeThreadCall φ)
  deriving DecidableEq

namespace NativeCall

variable {φ : Type}

abbrev Answer : NativeCall φ → Type
  | register call => call.Answer
  | memory call => call.Answer
  | hook call => call.Answer
  | console _ => Unit
  | system call => call.Answer
  | socket call => call.Answer
  | thread call => call.Answer

def primitive : NativeCall φ → String
  | register call => call.primitive
  | memory call => call.primitive
  | hook call => call.primitive
  | console call => call.primitive
  | system call => call.primitive
  | socket call => call.primitive
  | thread call => call.primitive

abbrev Reply (call : NativeCall φ) : Type :=
  Except Thrown call.Answer

def ticket? : NativeCall φ → Option Ticket
  | socket call => call.ticket?
  | _ => none

end NativeCall

/-- What a program over native calls does besides them. -/
inductive Effect (φ : Type) where
  | notice (notice : Notice (Closure φ))
  | consoleLog (text : String)
  | keepProcedure (key : UInt32) (callback : φ)
  | dropProcedure (key : UInt32)
  /-- A new socket or server takes the place under its descriptor. -/
  | opened (endpoint : Endpoint)

abbrev NativeProgram (φ α : Type) : Type :=
  Program (NativeCall φ) NativeCall.Reply (Effect φ) α

end EmuScript.Engine
