import EmuScript.Host.Action

/-!
# Servers

A server listens on a port and accepts one client after another. Each client
becomes a socket with the server's configuration, which is handed to the
connection handler before the next client is asked for.
-/

set_option autoImplicit false

namespace EmuScript

structure Server (κ : Type) where
  fd : SocketFd
  config : SessionConfig
  connectionHandler : Option κ := none

namespace Server

variable {κ : Type}

/-- The server as diagnostic output shows it. -/
def label (server : Server κ) : String :=
  "Server \x7b fd: SocketFd(" ++ toString server.fd.value.toNat
    ++ "), config: " ++ server.config.label ++ ", .. \x7d"

def listen (port : UInt16) : Update κ (Server κ) Unit := do
  let server ← get
  Update.ask (.socket (.listen server.fd port))
  Update.log .debug s!"server {server.fd.value.toNat}: listening on {port.toNat}"

/-- Creates a server at the emulator; with a port it listens at once. -/
def create (port : Option UInt16) (config : SessionConfig) : Action κ (Server κ) := do
  let fd ← Action.ask (.socket .create)
  let server : Server κ := { fd, config }
  match port with
  | none => return server
  | some port =>
      match ← ((listen port).on server : HostProgram κ _) with
      | (.ok (), server) => return server
      | (.error error, _) => throw error

def acceptNext : Update κ (Server κ) Unit := do
  Update.ask (.socket (.accept (← get).fd))

/-- Installs the connection handler and starts to accept. The handler stays
also when the emulator refuses the first request. -/
def onConnection (handler : κ) : Update κ (Server κ) Unit := do
  modify fun server => { server with connectionHandler := some handler }
  acceptNext

def deliverAccept (client : SocketFd) : Update κ (Server κ) Unit := do
  let server ← get
  Update.log .debug s!"server {server.fd.value.toNat}: accepted client {client.value.toNat}"
  Update.emitTo server.connectionHandler (.accepted · (Socket.accepted client server.config))
  acceptNext

end Server

end EmuScript
