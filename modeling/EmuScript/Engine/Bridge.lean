import EmuScript.Engine.Adapter
import EmuScript.Session.Basic

/-!
# Bridges

A bridge is all that one call of a script into the library may work on: the
session with its adapter, and the sockets, servers and threads that the script
knows by number. Completions of requests are applied to the objects that now
have the descriptor of the request.
-/

set_option autoImplicit false

namespace EmuScript.Engine

/-- The emulator has completed a request. -/
inductive Completion where
  | connected (fd : SocketFd)
  | received (fd : SocketFd) (data : Option Bytes)
  | written (fd : SocketFd)
  | accepted (server client : SocketFd)
  deriving DecidableEq

/-- The completion of a request with what it brings. -/
def Request.completion : (request : Request) → request.Payload → Completion
  | .connect fd, () => .connected fd
  | .accept server, client => .accepted server client
  | .read fd, data => .received fd data
  | .write fd, () => .written fd

structure Bridge (φ : Type) where
  adapter : Adapter φ := {}
  session : Session (Closure φ) := {}
  sockets : Table UInt32 (Socket (Closure φ)) := []
  servers : Table UInt32 (Server (Closure φ)) := []
  threads : Table UInt32 (Thread (Closure φ)) := []
  nextThread : UInt32 := 0

namespace Bridge

variable {φ α : Type}

abbrev Step (φ α : Type) : Type :=
  Bridge φ → NativeProgram φ (α × Bridge φ)

/-- Runs a program over host calls through the adapter. -/
def through (program : HostProgram (Closure φ) α) : Step φ α := fun bridge => do
  let (value, adapter) ← Adapter.lower program bridge.adapter
  return (value, { bridge with adapter })

def perform (action : Action (Closure φ) α) : Step φ (Except ScriptError α) :=
  through action.run

def onSession (update : Update (Closure φ) (Session (Closure φ)) α) :
    Step φ (Except ScriptError α) := fun bridge => do
  let ((result, session), bridge) ← through (update.on bridge.session) bridge
  return (result, { bridge with session })

def onSocket (fd : UInt32) (update : Update (Closure φ) (Socket (Closure φ)) α) :
    Step φ (Option (Except ScriptError α)) := fun bridge => do
  match bridge.sockets.find? fd with
  | none => return (none, bridge)
  | some socket =>
      let ((result, socket), bridge) ← through (update.on socket) bridge
      return (some result, { bridge with sockets := bridge.sockets.insert fd socket })

def onServer (fd : UInt32) (update : Update (Closure φ) (Server (Closure φ)) α) :
    Step φ (Option (Except ScriptError α)) := fun bridge => do
  match bridge.servers.find? fd with
  | none => return (none, bridge)
  | some server =>
      let ((result, server), bridge) ← through (update.on server) bridge
      return (some result, { bridge with servers := bridge.servers.insert fd server })

def onThread (key : UInt32) (update : Update (Closure φ) (Thread (Closure φ)) α) :
    Step φ (Option (Except ScriptError α)) := fun bridge => do
  match bridge.threads.find? key with
  | none => return (none, bridge)
  | some thread =>
      let ((result, thread), bridge) ← through (update.on thread) bridge
      return (some result, { bridge with threads := bridge.threads.insert key thread })

/-- Hands a completion to its socket or server. One for a descriptor that the
bridge does not know is dropped. -/
def complete : Completion → Step φ (Option (Except ScriptError Unit))
  | .connected fd => onSocket fd.value Socket.deliverConnect
  | .received fd data => onSocket fd.value (Socket.deliverRead data)
  | .written fd => onSocket fd.value Socket.deliverWrite
  | .accepted server client => onServer server.value (Server.deliverAccept client)

/-- Applies a completion. An error is reported on the console of the script, or
on the one of the engine when that fails too. -/
def apply (completion : Completion) : Step φ Unit := fun bridge => do
  match ← complete completion bridge with
  | (some (.error error), bridge) =>
      match ← perform (Console.reportError error) bridge with
      | (.ok (), bridge) => return ((), bridge)
      | (.error _, bridge) =>
          Program.notify (.consoleLog s!"error: {error.message}")
          return ((), bridge)
  | (_, bridge) => return ((), bridge)

def adopt (sockets : List (Socket (Closure φ))) (bridge : Bridge φ) : Bridge φ :=
  { bridge with
    sockets := sockets.foldl (fun table socket => table.insert socket.fd.value socket)
      bridge.sockets }

end Bridge

end EmuScript.Engine
