/-!
# Thread states
-/

set_option autoImplicit false

namespace EmuScript

inductive ThreadState where
  | ready | running | suspended | stopped
  deriving DecidableEq

namespace ThreadState

def all : List ThreadState :=
  [ready, running, suspended, stopped]

def code : ThreadState → UInt8
  | ready => 0
  | running => 1
  | suspended => 2
  | stopped => 3

def name : ThreadState → String
  | ready => "ready"
  | running => "running"
  | suspended => "suspended"
  | stopped => "stopped"

/-- The name of the state as diagnostic output shows it. -/
def label : ThreadState → String
  | ready => "Ready"
  | running => "Running"
  | suspended => "Suspended"
  | stopped => "Stopped"

end ThreadState

end EmuScript
