import EmuScript.Host.Action

/-!
# Socket requests and completions

A socket asks the emulator for connections, reads and writes, and the emulator
completes what it has taken later. Reading is a loop: each chunk that arrives
asks for the next one before the data handler runs. Completions of writes run
the handlers of the writes in the order in which they were accepted.
-/

set_option autoImplicit false

namespace EmuScript.Socket

variable {κ : Type}

def create (config : SessionConfig) : Action κ (Socket κ) := do
  return ofFd (← Action.ask (.socket .create)) false config

/-- Asks for a connection; parts that are not given come from the defaults. A
connected socket is left as it is. The handler takes effect when the emulator
has taken the request. -/
def connect (host : Option String) (port : Option UInt16) (handler : κ) :
    Update κ (Socket κ) Unit := do
  let socket ← get
  if socket.connected then return ()
  else
    let target := host.getD socket.defaultHost
    let port := port.getD socket.defaultPort
    Update.ask (.socket (.connect socket.fd target port))
    Update.log .debug s!"socket {socket.fd.value.toNat}: connecting to {target}:{port.toNat}"
    modify fun socket => { socket with connectHandler := some handler }

def deliverConnect : Update κ (Socket κ) Unit := do
  modify fun socket => { socket with connected := true }
  Update.emitTo (← get).connectHandler .connected

def readNext : Update κ (Socket κ) Unit := do
  let socket ← get
  Update.ask (.socket (.read socket.fd socket.bufferSize))

/-- Installs the data handler and starts to read. The handler stays also when
the emulator refuses the first read. -/
def onData (handler : κ) : Update κ (Socket κ) Unit := do
  modify fun socket => { socket with dataHandler := some handler }
  readNext

def onClose (handler : κ) : Update κ (Socket κ) Unit := do
  modify fun socket => { socket with closeHandler := some handler }

/-- The emulator has completed a read, with data or at the end of the stream.
Data are lost when the next read is refused. -/
def deliverRead (data : Option Bytes) : Update κ (Socket κ) Unit := do
  match data with
  | none =>
      modify fun socket => { socket with connected := false }
      Update.log .debug s!"socket {(← get).fd.value.toNat}: closed by peer"
      Update.emitTo (← get).closeHandler .closed
  | some data =>
      readNext
      Update.emitTo (← get).dataHandler (.received · data)

/-- Asks to write data. The handler, if any, waits for the completion once the
emulator has taken the request. -/
def write (data : Bytes) (handler : Option κ) : Update κ (Socket κ) Unit := do
  Update.ask (.socket (.write (← get).fd data))
  modify fun socket => { socket with pendingWrites := socket.pendingWrites ++ [handler] }

/-- The emulator has completed a write, the oldest one under way. -/
def deliverWrite : Update κ (Socket κ) Unit := do
  let socket ← get
  match socket.pendingWrites with
  | [] => Update.log .warn s!"socket {socket.fd.value.toNat}: write completed with none outstanding"
  | handler :: rest =>
      set { socket with pendingWrites := rest }
      Update.emitTo handler .written

/-- Closes the descriptor. Requests under way are not withdrawn. -/
def close : Update κ (Socket κ) Unit := do
  Update.ask (.socket (.close (← get).fd))
  modify fun socket => { socket with connected := false }

end EmuScript.Socket
