import EmuScript.Emulator.Basic
import EmuScript.Engine.Native
import EmuScript.Table

/-!
# The model emulator as a native table

The model emulator as a script engine sees it. A failing call throws, the
functions of threads are kept under their handles and not run, and completion
functions are kept until they are called. Numbers and handles can be queued for
the calls that answer them.
-/

set_option autoImplicit false

namespace EmuScript

open Engine Numeric

/-- A completion function that was not called. -/
structure PendingRequest where
  primitive : String
  fd : SocketFd
  ticket : Ticket
  deriving DecidableEq

structure NativeTable (φ : Type) where
  emulator : Emulator (Closure φ) := {}
  /-- Answers of the next integer reads, whatever the memory holds. -/
  queuedNumbers : List Double := []
  /-- Answers of the next calls that create a thread. -/
  queuedHandles : List Double := []
  threads : Table UInt64 (Closure φ) := []
  pending : List PendingRequest := []
  /-- What the calls of a primitive throw when they fail. -/
  throws : Table String Thrown := []

namespace NativeTable

variable {φ α : Type}

abbrev Step (φ α : Type) : Type :=
  NativeTable φ → Except String α × NativeTable φ

def plain (step : Emulator.Step (Closure φ) α) : Step φ α := fun table =>
  let (result, emulator) := step table.emulator
  (result, { table with emulator })

def performMemory : (call : NativeMemoryCall) → Step φ call.Answer
  | .readNumber space address bits signed => fun table =>
      let (result, table) := plain (Emulator.performMemory (.readInt space address bits signed)) table
      match result, table.queuedNumbers with
      | .ok _, number :: rest => (.ok number, { table with queuedNumbers := rest })
      | result, _ => (result.map Double.ofInt64, table)
  | .writeNumber address bits value =>
      plain (Emulator.performMemory (.writeInt .main address bits (Int64.ofInt value.truncate)))
  | .readFloat space address double =>
      plain (Emulator.performMemory (.readFloat space address double))
  | .writeFloat space address value double =>
      plain (Emulator.performMemory (.writeFloat space address value double))
  | .readBlock space address size =>
      plain (Emulator.performMemory (.readBlock space address size.toUInt64))
  | .writeBlock address data => plain (Emulator.performMemory (.writeBlock .main address data))
  | .readString space address => plain (Emulator.performMemory (.readString space address))
  | .writeString address text =>
      plain (Emulator.performMemory (.writeString .main address text))

def keep (primitive : String) (fd : SocketFd) (ticket : Ticket) : Step φ Unit := fun table =>
  (.ok (), { table with pending := table.pending ++ [⟨primitive, fd, ticket⟩] })

def performSocket : (call : NativeSocketCall) → Step φ call.Answer
  | .create => plain (Emulator.performSocket .create)
  | .connect fd _ _ done => keep "sockConnect" fd done
  | .listen fd port => plain (Emulator.performSocket (.listen fd port))
  | .accept fd done => keep "sockAccept" fd done
  | .read fd _ done => keep "read" fd done
  | .write fd _ done => keep "write" fd done
  | .close fd => plain (Emulator.performSocket (.close fd))

def performThread : (call : NativeThreadCall φ) → Step φ call.Answer
  | .create procedure => fun table =>
      let created := table.emulator.threadsCreated + 1
      let (number, queuedHandles) : Double × List Double :=
        match table.queuedHandles with
        | number :: rest => (number, rest)
        | [] => (Binary.ofInt created.toNat, [])
      (.ok number,
        { table with
          emulator.threadsCreated := created
          queuedHandles
          threads := table.threads.insert (Binary.toUInt64 number) procedure })
  | .suspend _ => fun table => (.ok (), table)
  | .resume _ => fun table => (.ok (), table)
  | .terminate handle => fun table =>
      (.ok (), { table with threads := table.threads.erase (Binary.toUInt64 handle) })
  | .sleep _ => fun table => (.ok (), table)

def perform : (call : NativeCall φ) → Step φ call.Answer
  | .register call => plain (Emulator.performRegister call)
  | .memory call => performMemory call
  | .hook call => plain (Emulator.performHook call)
  | .console _ => fun table => (.ok (), table)
  | .system call => plain (Emulator.performSystem call)
  | .socket call => performSocket call
  | .thread call => performThread call

/-- What a failing call throws: what was set for its primitive, or else an error
with the message. -/
def thrown (table : NativeTable φ) (primitive message : String) : Thrown :=
  (table.throws.find? primitive).getD (.error message)

/-- The reply to a call: an injected failure, or what carrying it out gives. -/
def serve (call : NativeCall φ) (table : NativeTable φ) : NativeCall.Reply call × NativeTable φ :=
  let (message, failures) := Emulator.countCall call.primitive table.emulator.failures
  let table := { table with emulator.failures := failures }
  let (result, table) : Except String call.Answer × NativeTable φ :=
    match message with
    | some message => (.error message, table)
    | none => perform call table
  (result.mapError (table.thrown call.primitive), table)

/-- The replies to single calls of a table as it stands. -/
def replies (table : NativeTable φ) (call : NativeCall φ) : NativeCall.Reply call :=
  (table.serve call).1

/-- Takes the oldest pending request of a primitive on a descriptor. -/
def takePending (primitive : String) (fd : SocketFd) (table : NativeTable φ) :
    Option (Ticket × NativeTable φ) := do
  let request ← table.pending.find? fun request =>
    request.primitive = primitive ∧ request.fd = fd
  return (request.ticket, { table with pending := table.pending.erase request })

def dropPending (ticket : Ticket) (table : NativeTable φ) : NativeTable φ :=
  { table with pending := table.pending.filter (·.ticket ≠ ticket) }

end NativeTable

end EmuScript
