import EmuScript.Engine.Machine

/-!
# Several sessions on one engine thread

Sessions that live on the same thread of a script engine take turns. Each has
its own bridge and its own calls; the table of the procedures of threads is the
one thing that they share.
-/

set_option autoImplicit false

namespace EmuScript.Engine

structure Realm (φ : Type) where
  /-- The session with number `i` is at position `i`. -/
  machines : List (Machine φ)
  procedures : Table UInt32 (Procedure φ) := []

namespace Realm

variable {φ : Type}

def start (configs : List SessionConfig) : Realm φ :=
  { machines := configs.mapIdx Machine.start }

/-- A session of the realm, with the procedures that it sees. -/
def machine? (realm : Realm φ) (id : Nat) : Option (Machine φ) :=
  realm.machines[id]?.map fun machine => { machine with procedures := realm.procedures }

/-- One move in the session with a number, and what was observed of it. -/
def step (realm : Realm φ) (id : Nat) (move : Move φ) : Realm φ × List (Event φ) :=
  match realm.machine? id with
  | none => (realm, [])
  | some machine =>
      let (machine, events) := machine.step move
      ({ machines := realm.machines.set id machine, procedures := machine.procedures }, events)

def steps (realm : Realm φ) : List (Nat × Move φ) → Realm φ × List (Event φ)
  | [] => (realm, [])
  | (id, move) :: rest =>
      let (realm, events) := realm.step id move
      let (realm, later) := realm.steps rest
      (realm, events ++ later)

end Realm

end EmuScript.Engine
