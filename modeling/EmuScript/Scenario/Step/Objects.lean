import EmuScript.Scenario.Control
import EmuScript.Scenario.Report
import EmuScript.Scenario.World

/-!
# Steps on hooks, threads, sockets and servers

An object keeps what was done to it also when the step fails.
-/

set_option autoImplicit false

namespace EmuScript.Scenario

/-- Runs an update on a stored object and stores the object after it. -/
def updateStored {σ : Type} (key : String) (step : Json) (table : World → Table String σ)
    (store : Table String σ → World → World) (encode : σ → Json) (update : Update String σ Unit) :
    Run Answer := do
  let name ← field key asString step
  let object ← named (table (← get)) name
  let (result, object) ← perform (update.on object)
  modify fun world => store ((table world).insert name object) world
  return result.map fun _ => encode object

def onThread (step : Json) (update : Update String (Thread String) Unit) : Run Answer :=
  updateStored "thread" step (·.threads) (fun threads world => { world with threads }) ofThread
    update

def onSocket (step : Json) (update : Update String (Socket String) Unit) : Run Answer :=
  updateStored "socket" step (·.sockets) (fun sockets world => { world with sockets }) ofSocket
    update

def onServer (step : Json) (update : Update String (Server String) Unit) : Run Answer :=
  updateStored "server" step (·.servers) (fun servers world => { world with servers })
    (fun _ => .null) update

def storeCreated {σ : Type} (name : String) (store : String → σ → World → World)
    (encode : σ → Json) (action : Action String σ) : Run Answer := do
  match ← perform action.run with
  | .ok object =>
      modify (store name object)
      done (encode object)
  | .error error => return .error error

def theRegistry (step : Json) : Run (HookRegistry String) := do
  match ← optional "registry" asString step with
  | none => return (← get).session.hooks
  | some name => return ((← get).registries.find? name).getD {}

def onRegistry {α : Type} (step : Json) (encode : α → Json)
    (update : Update String (HookRegistry String) α) : Run Answer := do
  match ← optional "registry" asString step with
  | none =>
      let (result, session) ← perform ((Session.updateHooks update).on (← get).session)
      modify fun world => { world with session }
      return result.map encode
  | some name =>
      let (result, registry) ← perform (update.on (((← get).registries.find? name).getD {}))
      modify fun world => { world with registries := world.registries.insert name registry }
      return result.map encode

def hookStep (step : Json) (what : String) : Run Answer := do
  let id : Decoder CallbackId := return ⟨← field "id" asWord step⟩
  let install (kind : HookKind) : Run Answer := do
    onRegistry step ofHandle
      (HookRegistry.install kind (← field "tag" asWord step) (← field "label" asString step))
  match what with
  | "hook.on" =>
      let name ← field "kind" asString step
      match HookKind.ofName? name with
      | some kind => install kind
      | none => return .error (.unknownHookKind name)
  | "hook.onexec" => install .exec
  | "hook.onread" => install .read
  | "hook.onwrite" => install .write
  | "hook.off" => onRegistry step ofRegistration (HookRegistry.remove (← id))
  | "hook.clear" => onRegistry step (fun _ => .null) HookRegistry.clear
  | "hook.get" => done (ofOption ofRegistration ((← theRegistry step).find? (← id)))
  | "hook.debug" =>
      done (ofOption (fun entry => .string entry.label) ((← theRegistry step).find? (← id)))
  | "hook.list" =>
      let registry ← theRegistry step
      done (.object [("ids", .array (registry.ids.map fun id => ofWord id.value)),
        ("len", ofNat registry.entries.length), ("empty", .bool registry.entries.isEmpty)])
  | "hook.invoke" =>
      quiet ((← theRegistry step).invoke (← id) (← field "address" asWord step))
  | "hook.hold" =>
      match (← theRegistry step).find? (← id) with
      | none => done (.bool false)
      | some entry =>
          let slot ← field "slot" asString step
          modify fun world => { world with slots := world.slots.insert slot entry.callback }
          done (.bool true)
  | "hook.call" =>
      let callback ← named (← get).slots (← field "slot" asString step)
      quiet (Action.emit (.hook callback (← field "address" asWord step)))
  | other => throw ("unknown step " ++ other)

def threadStep (step : Json) (what : String) : Run Answer := do
  let store (name : String) (thread : Thread String) (world : World) : World :=
    { world with threads := world.threads.insert name thread }
  match what with
  | "thread.new" =>
      let thread : Thread String := { procedure := ← field "label" asString step }
      modify (store (← field "thread" asString step) thread)
      done (ofThread thread)
  | "thread.spawn" =>
      storeCreated (← field "thread" asString step) store ofThread
        (Thread.spawn (← field "label" asString step))
  | "thread.start" => onThread step Thread.start
  | "thread.suspend" => onThread step Thread.suspend
  | "thread.resume" => onThread step Thread.resume
  | "thread.stop" => onThread step Thread.stop
  | "thread.show" => done (ofThread (← named (← get).threads (← field "thread" asString step)))
  | "thread.debug" =>
      done (.string (← named (← get).threads (← field "thread" asString step)).label)
  | "thread.sleep" => quiet (Thread.sleep (← field "ms" asWord step))
  | other => throw ("unknown step " ++ other)

def socketStep (step : Json) (what : String) : Run Answer := do
  let label := field "label" asString step
  let store (name : String) (socket : Socket String) (world : World) : World :=
    { world with sockets := world.sockets.insert name socket }
  let shown := do named (← get).sockets (← field "socket" asString step)
  match what with
  | "socket.new" =>
      let name ← field "socket" asString step
      let config := (← optional "config" asConfig step).getD {}
      match ← field "via" asString step with
      | "session" => storeCreated name store ofSocket (← get).session.createSocket
      | "accepted" =>
          storeCreated name store ofSocket
            (pure (Socket.accepted ⟨← field "fd" asWord step⟩ config))
      | _ => storeCreated name store ofSocket (Socket.create config)
  | "socket.connect" =>
      onSocket step (Socket.connect (← optional "host" asString step)
        (← optional "port" asPort step) (← label))
  | "socket.deliver_connect" => onSocket step Socket.deliverConnect
  | "socket.on_data" => onSocket step (Socket.onData (← label))
  | "socket.on_close" => onSocket step (Socket.onClose (← label))
  | "socket.deliver_read" => onSocket step (Socket.deliverRead (← optional "data" asBytes step))
  | "socket.write" =>
      onSocket step (Socket.write (← field "data" asBytes step) (← optional "label" asString step))
  | "socket.deliver_write" => onSocket step Socket.deliverWrite
  | "socket.close" => onSocket step Socket.close
  | "socket.show" => done (ofSocket (← shown))
  | "socket.debug" => done (.string (← shown).label)
  | other => throw ("unknown step " ++ other)

def serverStep (step : Json) (what : String) : Run Answer := do
  let store (name : String) (server : Server String) (world : World) : World :=
    { world with servers := world.servers.insert name server }
  let name ← field "server" asString step
  match what with
  | "server.new" =>
      let port ← optional "port" asPort step
      let config := (← optional "config" asConfig step).getD {}
      match ← field "via" asString step with
      | "session" => storeCreated name store ofServer ((← get).session.createServer port)
      | _ => storeCreated name store ofServer (Server.create port config)
  | "server.listen" => onServer step (Server.listen (← field "port" asPort step))
  | "server.on_connection" => onServer step (Server.onConnection (← field "label" asString step))
  | "server.deliver_accept" =>
      let answer ← onServer step (Server.deliverAccept ⟨← field "client" asWord step⟩)
      for client in (← get).host.clients do
        modify fun world =>
          { world with
            sockets := world.sockets.insert (name ++ "/" ++ toString client.fd.value.toNat) client }
      modify fun world => { world with host.clients := [] }
      return answer
  | "server.debug" => done (.string (← named (← get).servers name).label)
  | other => throw ("unknown step " ++ other)

end EmuScript.Scenario
