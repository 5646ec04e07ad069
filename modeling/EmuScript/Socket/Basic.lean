import EmuScript.Session.Config
import EmuScript.Text.Utf8

/-!
# Sockets

A socket as the script library sees it: the descriptor of the emulator, the
flag and the handlers that completions of the emulator act on, and the queue of
writes that are still under way. Handlers are of any type `κ`.
-/

set_option autoImplicit false

namespace EmuScript

/-- The number under which the emulator knows a socket. -/
structure SocketFd where
  value : UInt32
  deriving DecidableEq

structure Socket (κ : Type) where
  fd : SocketFd
  connected : Bool
  bufferSize : UInt64
  defaultHost : String
  defaultPort : UInt16
  dataHandler : Option κ := none
  closeHandler : Option κ := none
  connectHandler : Option κ := none
  /-- The handlers of accepted writes that have not completed, oldest first. -/
  pendingWrites : List (Option κ) := []

namespace Socket

variable {κ : Type}

/-- A socket without handlers, taking its defaults from a configuration. -/
def ofFd (fd : SocketFd) (connected : Bool) (config : SessionConfig) : Socket κ :=
  { fd
    connected
    bufferSize := config.socketBufferSize
    defaultHost := config.connectHost
    defaultPort := config.connectPort }

/-- The socket of a client that a server has accepted; it is connected. -/
def accepted (fd : SocketFd) (config : SessionConfig) : Socket κ :=
  ofFd fd true config

/-- The socket as diagnostic output shows it. -/
def label (socket : Socket κ) : String :=
  "Socket \x7b fd: SocketFd(" ++ toString socket.fd.value.toNat
    ++ "), connected: " ++ toString socket.connected
    ++ ", buffer_size: " ++ toString socket.bufferSize.toNat
    ++ ", pending_writes: " ++ toString socket.pendingWrites.length
    ++ ", .. \x7d"

end Socket

end EmuScript
