import EmuScript.Emulator.Memory
import EmuScript.Host.Call

/-!
# A model emulator

A small emulator that carries out every host call: it has registers, two
memories, a table of installed hooks, and counters for the descriptors and
handles that it gives out. Failures can be injected for any primitive, and the
numbers that reads answer can be queued in advance. Requests of sockets are
taken and never completed by the emulator itself.
-/

set_option autoImplicit false

namespace EmuScript

open Numeric

namespace Emulator

structure InstalledHook (κ : Type) where
  id : HostHookId
  kind : HookKind
  tag : UInt32
  callback : κ

/-- A primitive fails with this message once it has been called `passes` more
times. -/
structure Failure where
  primitive : String
  passes : Nat
  message : String
  deriving DecidableEq

end Emulator

structure Emulator (κ : Type) where
  gpr : UInt32 → UInt32 := fun _ => 0
  fpr : UInt32 → Single := fun _ => .zero false
  pc : UInt32 := 0
  main : Emulator.Memory := .blank
  rom : Emulator.Memory := .blank
  saveSlot : UInt32 := 0
  hooks : List (Emulator.InstalledHook κ) := []
  hooksAdded : UInt32 := 0
  /-- The id for the next hook, when it is not counted. -/
  nextHook : Option HostHookId := none
  socketsCreated : UInt32 := 0
  threadsCreated : UInt64 := 0
  failures : List Emulator.Failure := []
  queuedInts : List Int64 := []
  queuedFloats : List Double := []

namespace Emulator

variable {κ α : Type}

/-- What one call does: it answers, or fails with a message. -/
abbrev Step (κ α : Type) : Type :=
  Emulator κ → Except String α × Emulator κ

def reply (value : α) : Step κ α :=
  fun emulator => (.ok value, emulator)

def refuse (message : String) : Step κ α :=
  fun emulator => (.error message, emulator)

def change (next : Emulator κ → Emulator κ) : Step κ Unit :=
  fun emulator => (.ok (), next emulator)

/-- The failure injected for a primitive, counting the call. -/
def countCall (primitive : String) : List Failure → Option String × List Failure
  | [] => (none, [])
  | failure :: rest =>
      if failure.primitive = primitive then
        match failure.passes with
        | 0 => (some failure.message, failure :: rest)
        | passes + 1 => (none, { failure with passes } :: rest)
      else
        let (message, rest) := countCall primitive rest
        (message, failure :: rest)

def guarded (primitive : String) (step : Step κ α) : Step κ α :=
  fun emulator =>
    let (message, failures) := countCall primitive emulator.failures
    let emulator := { emulator with failures }
    match message with
    | some message => (.error message, emulator)
    | none => step emulator

/-- Injects a failure, in place of one for the same primitive. -/
def injectFailure (failure : Failure) (emulator : Emulator κ) : Emulator κ :=
  { emulator with
    failures := emulator.failures.filter (·.primitive ≠ failure.primitive) ++ [failure] }

def registerCount : UInt32 := 32

/-- A step on a register, which must exist. -/
def withRegister (index : UInt32) (step : Step κ α) : Step κ α :=
  if index < registerCount then step else refuse s!"no register {index.toNat}"

def performRegister : (call : RegisterCall) → Step κ call.Answer
  | .gpr index => withRegister index fun emulator => (.ok (emulator.gpr index), emulator)
  | .setGpr index value =>
      withRegister index <| change fun emulator =>
        { emulator with gpr := fun other => if other = index then value else emulator.gpr other }
  | .fpr index => withRegister index fun emulator => (.ok (emulator.fpr index), emulator)
  | .setFpr index value =>
      withRegister index <| change fun emulator =>
        { emulator with fpr := fun other => if other = index then value else emulator.fpr other }
  | .pc => fun emulator => (.ok emulator.pc, emulator)
  | .setPc value => change fun emulator => { emulator with pc := value }

def memory (emulator : Emulator κ) : MemorySpace → Memory
  | .main => emulator.main
  | .rom => emulator.rom

def setMemory (space : MemorySpace) (memory : Memory) (emulator : Emulator κ) : Emulator κ :=
  match space with
  | .main => { emulator with main := memory }
  | .rom => { emulator with rom := memory }

/-- A change of a memory to which integers, blocks and strings can be written. -/
def writePlain (space : MemorySpace) (next : Memory → Memory) : Step κ Unit :=
  match space with
  | .main => change fun emulator => setMemory .main (next emulator.main) emulator
  | .rom => refuse "rom is read only"

def maxBlockSize : UInt64 := 65536

def performMemory : (call : MemoryCall) → Step κ call.Answer
  | .readInt space address bits signed => fun emulator =>
      match emulator.queuedInts with
      | value :: rest => (.ok value, { emulator with queuedInts := rest })
      | [] =>
          (.ok (Int64.ofInt ((emulator.memory space).readInt address bits signed)), emulator)
  | .writeInt space address bits value =>
      writePlain space fun memory => memory.writeInt address bits value.toInt
  | .readFloat space address double => fun emulator =>
      match emulator.queuedFloats with
      | value :: rest => (.ok value, { emulator with queuedFloats := rest })
      | [] => (.ok ((emulator.memory space).readFloat address double), emulator)
  | .writeFloat space address value double =>
      change fun emulator =>
        setMemory space ((emulator.memory space).writeFloat address value double) emulator
  | .readBlock space address size => fun emulator =>
      if maxBlockSize < size then (.error "block too large", emulator)
      else (.ok ((emulator.memory space).read address size.toNat), emulator)
  | .writeBlock space address data => writePlain space fun memory => memory.write address data
  | .readString space address => fun emulator =>
      match (emulator.memory space).readString? address with
      | some text => (.ok text, emulator)
      | none => (.error "invalid utf-8", emulator)
  | .writeString space address text =>
      writePlain space fun memory => memory.writeString address text

/-- Puts a hook at its place in the order of ids, in place of one with its id. -/
def insertHook (hook : InstalledHook κ) : List (InstalledHook κ) → List (InstalledHook κ)
  | [] => [hook]
  | first :: rest =>
      if hook.id.value < first.id.value then hook :: first :: rest
      else if hook.id = first.id then hook :: rest
      else first :: insertHook hook rest

def nextHookId (emulator : Emulator κ) : HostHookId :=
  emulator.nextHook.getD ⟨100 + emulator.hooksAdded⟩

def performHook : (call : HookCall κ) → Step κ call.Answer
  | .install kind tag callback => fun emulator =>
      let id := emulator.nextHookId
      (.ok id,
        { emulator with
          hooks := insertHook ⟨id, kind, tag, callback⟩ emulator.hooks
          hooksAdded := emulator.hooksAdded + 1
          nextHook := none })
  | .remove id =>
      change fun emulator => { emulator with hooks := emulator.hooks.filter (·.id ≠ id) }

def performSystem : (call : SystemCall) → Step κ call.Answer
  | .setSaveSlot slot => change fun emulator => { emulator with saveSlot := slot }
  | .saveSlot => fun emulator => (.ok emulator.saveSlot, emulator)
  | .pause => reply ()
  | .resume => reply ()
  | .reset => reply ()
  | .hardReset => reply ()
  | .saveState => reply ()
  | .loadState => reply ()
  | .generateBitmap => reply ()
  | .showMemory _ => reply ()
  | .showCommands _ => reply ()

def performSocket : (call : SocketCall) → Step κ call.Answer
  | .create => fun emulator =>
      let created := emulator.socketsCreated + 1
      (.ok ⟨created⟩, { emulator with socketsCreated := created })
  | .connect _ _ _ => reply ()
  | .listen _ _ => reply ()
  | .accept _ => reply ()
  | .read _ _ => reply ()
  | .write _ _ => reply ()
  | .close _ => reply ()

def performThread : (call : ThreadCall κ) → Step κ call.Answer
  | .create _ => fun emulator =>
      let created := emulator.threadsCreated + 1
      (.ok ⟨created⟩, { emulator with threadsCreated := created })
  | .suspend _ => reply ()
  | .resume _ => reply ()
  | .terminate _ => reply ()
  | .sleep _ => reply ()

def perform : (call : HostCall κ) → Step κ call.Answer
  | .register call => performRegister call
  | .memory call => performMemory call
  | .hook call => performHook call
  | .console _ => reply ()
  | .system call => performSystem call
  | .socket call => performSocket call
  | .thread call => performThread call

/-- The reply to a call: an injected failure, or what carrying it out gives. -/
def serve (call : HostCall κ) (emulator : Emulator κ) : HostCall.Reply call × Emulator κ :=
  let (result, emulator) := guarded call.primitive (perform call) emulator
  (result.mapError (HostError.mk call.primitive), emulator)

/-- The callbacks that hooks on an event have, in the order of the hooks. -/
def callbacksOn (hooks : List (InstalledHook κ)) (kind : HookKind) (address : UInt32) : List κ :=
  (hooks.filter fun hook => hook.kind = kind ∧ hook.tag = address).map (·.callback)

/-- The callbacks that are run on an event, by ascending id of their hooks. -/
def hooksOn (emulator : Emulator κ) (kind : HookKind) (address : UInt32) : List κ :=
  callbacksOn emulator.hooks kind address

end Emulator

end EmuScript
