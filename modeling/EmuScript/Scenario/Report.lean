import EmuScript.Hook.Registry
import EmuScript.Scenario.Writer
import EmuScript.Socket.Server
import EmuScript.Thread.Basic

/-!
# Reports on objects

The JSON forms in which a scenario shows the state of hooks, threads and
servers.
-/

set_option autoImplicit false

namespace EmuScript.Scenario

def ofHandle (handle : HookHandle) : Json :=
  .object [("id", ofWord handle.id.value), ("host", ofWord handle.host.value)]

def ofRegistration {κ : Type} (registration : Registration κ) : Json :=
  .object [("id", ofWord registration.id.value), ("kind", .string registration.kind.name),
    ("tag", ofWord registration.tag), ("host", ofWord registration.host.value)]

def ofThread {κ : Type} (thread : Thread κ) : Json :=
  .object [("state", .string thread.state.name), ("code", ofNat thread.state.code.toNat),
    ("handle", ofOption (fun handle => ofNat handle.value.toNat) thread.handle)]

def ofServer {κ : Type} (server : Server κ) : Json :=
  .object [("fd", ofWord server.fd.value)]

end EmuScript.Scenario
