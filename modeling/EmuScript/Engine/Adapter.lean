import EmuScript.Engine.Native
import EmuScript.Table

/-!
# Host calls as native calls

The adapter carries out host calls by native calls. A value that is thrown
becomes the failure of the primitive that was called. Calls that the native
table does not have, or whose sizes it cannot express, are refused without a
native call. The functions handed over for hooks and threads are retained as
long as the emulator may call them.
-/

set_option autoImplicit false

namespace EmuScript.Engine

open Numeric

structure Adapter (φ : Type) where
  hooks : Table HostHookId (Closure φ) := []
  threads : Table ThreadHandle (Closure φ) := []
  ticketsIssued : Nat := 0

namespace Adapter

variable {φ α : Type}

/-- A step of the adapter: a program that may change it. -/
abbrev Step (φ α : Type) : Type :=
  Adapter φ → NativeProgram φ (Except HostError α × Adapter φ)

def failure (primitive : String) (thrown : Thrown) : HostError :=
  ⟨primitive, thrown.message⟩

/-- A native call whose answer is taken as it is. -/
def direct (call : NativeCall φ) : Step φ call.Answer := fun adapter => do
  let reply ← Program.call call
  return (reply.mapError (failure call.primitive), adapter)

def refuse (primitive message : String) : Step φ α := fun adapter =>
  return (.error ⟨primitive, message⟩, adapter)

def converted {β : Type} (convert : α → β) (step : Step φ α) : Step φ β := fun adapter => do
  let (result, adapter) ← step adapter
  return (result.map convert, adapter)

def readOnlyMessage : String :=
  "rom accepts float and double writes only"

def sizeMessage : String :=
  "size exceeds 32 bits"

/-- The size as a word, unless it is too great for one. -/
def wordSize? (size : UInt64) : Option UInt32 :=
  if size.toNat < UInt32.size then some size.toUInt32 else none

def serveMemory : (call : MemoryCall) → Step φ call.Answer
  | .readInt space address bits signed =>
      converted Binary.toInt64 (direct (.memory (.readNumber space address bits signed)))
  | .writeInt .main address bits value =>
      direct (.memory (.writeNumber address bits (Double.ofInt64 value)))
  | .writeInt .rom _ _ _ => refuse "setROMInt" readOnlyMessage
  | .readFloat space address double => direct (.memory (.readFloat space address double))
  | .writeFloat space address value double =>
      direct (.memory (.writeFloat space address value double))
  | .readBlock space address size =>
      match wordSize? size with
      | some size => direct (.memory (.readBlock space address size))
      | none => refuse "getRDRAMBlock" sizeMessage
  | .writeBlock .main address data => direct (.memory (.writeBlock address data))
  | .writeBlock .rom _ _ => refuse "setROMBlock" readOnlyMessage
  | .readString space address => direct (.memory (.readString space address))
  | .writeString .main address text => direct (.memory (.writeString address text))
  | .writeString .rom _ _ => refuse "setROMString" readOnlyMessage

def serveHook : (call : HookCall (Closure φ)) → Step φ call.Answer
  | .install kind tag callback => fun adapter => do
      match ← direct (.hook (.install kind tag callback)) adapter with
      | (.ok id, adapter) =>
          return (.ok id, { adapter with hooks := adapter.hooks.insert id callback })
      | (.error error, adapter) => return (.error error, adapter)
  | .remove id => fun adapter => do
      match ← direct (.hook (.remove id)) adapter with
      | (.ok (), adapter) => return (.ok (), { adapter with hooks := adapter.hooks.erase id })
      | (.error error, adapter) => return (.error error, adapter)

/-- A request with a ticket of its own. -/
def withTicket (request : Request) (call : Ticket → NativeSocketCall)
    (answer : (ticket : Ticket) → (call ticket).Answer → α) : Step φ α := fun adapter =>
  let ticket : Ticket := ⟨adapter.ticketsIssued, request⟩
  converted (answer ticket) (direct (.socket (call ticket)))
    { adapter with ticketsIssued := adapter.ticketsIssued + 1 }

def serveSocket : (call : SocketCall) → Step φ call.Answer
  | .create => direct (.socket .create)
  | .connect fd host port => withTicket (.connect fd) (.connect fd host port) fun _ _ => ()
  | .listen fd port => direct (.socket (.listen fd port))
  | .accept fd => withTicket (.accept fd) (.accept fd) fun _ _ => ()
  | .read fd size =>
      match wordSize? size with
      | some size => withTicket (.read fd) (.read fd size) fun _ _ => ()
      | none => refuse "read" sizeMessage
  | .write fd data => withTicket (.write fd) (.write fd data) fun _ _ => ()
  | .close fd => direct (.socket (.close fd))

def handleNumber (handle : ThreadHandle) : Double :=
  Binary.ofInt handle.value.toNat

def serveThread : (call : ThreadCall (Closure φ)) → Step φ call.Answer
  | .create procedure => fun adapter => do
      match ← direct (.thread (.create procedure)) adapter with
      | (.ok number, adapter) =>
          let handle : ThreadHandle := ⟨Binary.toUInt64 number⟩
          return (.ok handle, { adapter with threads := adapter.threads.insert handle procedure })
      | (.error error, adapter) => return (.error error, adapter)
  | .suspend handle => direct (.thread (.suspend (handleNumber handle)))
  | .resume handle => direct (.thread (.resume (handleNumber handle)))
  | .terminate handle => fun adapter => do
      match ← direct (.thread (.terminate (handleNumber handle))) adapter with
      | (.ok (), adapter) =>
          return (.ok (), { adapter with threads := adapter.threads.erase handle })
      | (.error error, adapter) => return (.error error, adapter)
  | .sleep milliseconds => direct (.thread (.sleep milliseconds))

def serve : (call : HostCall (Closure φ)) → Step φ call.Answer
  | .register call => direct (.register call)
  | .memory call => serveMemory call
  | .hook call => serveHook call
  | .console call => direct (.console call)
  | .system call => direct (.system call)
  | .socket call => serveSocket call
  | .thread call => serveThread call

/-- A program over host calls as one over native calls. -/
def lower : HostProgram (Closure φ) α → Adapter φ → NativeProgram φ (α × Adapter φ)
  | .done value, adapter => .done (value, adapter)
  | .tell notice rest, adapter => .tell (.notice notice) (lower rest adapter)
  | .ask call next, adapter =>
      (serve call adapter).bind fun (reply, adapter) => lower (next reply) adapter

end Adapter

end EmuScript.Engine
