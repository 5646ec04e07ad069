/-!
# Hook kinds

The memory events on which an emulator calls a script.
-/

set_option autoImplicit false

namespace EmuScript

inductive HookKind where
  | exec | read | write
  deriving DecidableEq

namespace HookKind

def all : List HookKind :=
  [exec, read, write]

def name : HookKind → String
  | exec => "exec"
  | read => "read"
  | write => "write"

/-- The name of the kind as diagnostic output shows it. -/
def label : HookKind → String
  | exec => "Exec"
  | read => "Read"
  | write => "Write"

def ofName? : String → Option HookKind
  | "exec" => some exec
  | "read" => some read
  | "write" => some write
  | _ => none

end HookKind

/-- The number under which a registry knows a registration. -/
structure CallbackId where
  value : UInt32
  deriving DecidableEq

/-- The number under which an emulator knows an installed hook. -/
structure HostHookId where
  value : UInt32
  deriving DecidableEq

end EmuScript
