import EmuScript.Host.Action
import EmuScript.Text.Hex

/-!
# Hook registry

A registry keeps, in the order of their ids, the hooks that it has installed at
the emulator. Every request to install takes a new id, also one that the
emulator refuses. A hook leaves the registry when the emulator has removed it.
-/

set_option autoImplicit false

namespace EmuScript

structure Registration (κ : Type) where
  id : CallbackId
  kind : HookKind
  tag : UInt32
  host : HostHookId
  callback : κ

/-- The registration as diagnostic output shows it. -/
def Registration.label {κ : Type} (registration : Registration κ) : String :=
  "Registration \x7b id: CallbackId(" ++ toString registration.id.value.toNat
    ++ "), kind: " ++ registration.kind.label
    ++ ", tag: " ++ toString registration.tag.toNat
    ++ ", host: HostHookId(" ++ toString registration.host.value.toNat
    ++ "), .. \x7d"

/-- What a script gets for a hook that it has installed. -/
structure HookHandle where
  id : CallbackId
  host : HostHookId
  deriving DecidableEq

structure HookRegistry (κ : Type) where
  entries : List (Registration κ) := []
  nextId : UInt32 := 0

namespace HookRegistry

variable {κ : Type}

def find? (registry : HookRegistry κ) (id : CallbackId) : Option (Registration κ) :=
  registry.entries.find? fun entry => entry.id = id

def ids (registry : HookRegistry κ) : List CallbackId :=
  registry.entries.map (·.id)

/-- Puts an entry at its place in the order, in place of one with its id. -/
def insertEntry (entry : Registration κ) : List (Registration κ) → List (Registration κ)
  | [] => [entry]
  | first :: rest =>
      if entry.id.value < first.id.value then entry :: first :: rest
      else if entry.id = first.id then entry :: rest
      else first :: insertEntry entry rest

def eraseEntry (id : CallbackId) (entries : List (Registration κ)) : List (Registration κ) :=
  entries.filter fun entry => entry.id ≠ id

def installedText (id : CallbackId) (kind : HookKind) (tag : UInt32) (host : HostHookId) : String :=
  s!"hook {id.value.toNat} installed: {kind.name} @ {Text.hexAddress tag} (host {host.value.toNat})"

def removedText (id : CallbackId) (host : HostHookId) : String :=
  s!"hook {id.value.toNat} removed (host {host.value.toNat})"

/-- Installs a callback at the emulator under the next id. -/
def install (kind : HookKind) (tag : UInt32) (callback : κ) :
    Update κ (HookRegistry κ) HookHandle := do
  let id : CallbackId := ⟨(← get).nextId⟩
  modify fun registry => { registry with nextId := registry.nextId + 1 }
  let host ← Update.ask (.hook (.install kind tag callback))
  Update.log .debug (installedText id kind tag host)
  modify fun registry =>
    { registry with entries := insertEntry ⟨id, kind, tag, host, callback⟩ registry.entries }
  return ⟨id, host⟩

/-- Removes a hook from the emulator, then from the registry. -/
def remove (id : CallbackId) : Update κ (HookRegistry κ) (Registration κ) := do
  let entry ← Update.getOrThrow ((← get).find? id) (.unknownCallback id)
  Update.ask (.hook (.remove entry.host))
  Update.log .debug (removedText id entry.host)
  modify fun registry => { registry with entries := eraseEntry id registry.entries }
  return entry

/-- Removes the hooks with the given ids in order, up to the first failure. -/
def removeAll : List CallbackId → Update κ (HookRegistry κ) Unit
  | [] => return ()
  | id :: rest => do
      let _ ← remove id
      removeAll rest

/-- Removes every hook by ascending id, up to the first failure. -/
def clear : Update κ (HookRegistry κ) Unit := do
  removeAll (← get).ids

def invoke (registry : HookRegistry κ) (id : CallbackId) (address : UInt32) :
    Action κ Unit := do
  let entry ← Action.getOrThrow (registry.find? id) (.unknownCallback id)
  Action.emit (.hook entry.callback address)

end HookRegistry

end EmuScript
