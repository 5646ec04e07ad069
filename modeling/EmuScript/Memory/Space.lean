/-!
# Memory spaces
-/

set_option autoImplicit false

namespace EmuScript

/-- The two address spaces of the emulated machine. -/
inductive MemorySpace where
  | main | rom
  deriving DecidableEq

namespace MemorySpace

def all : List MemorySpace :=
  [main, rom]

def name : MemorySpace → String
  | main => "Main"
  | rom => "Rom"

/-- The name of the space in messages. -/
def text : MemorySpace → String
  | main => "main memory"
  | rom => "rom"

end MemorySpace

end EmuScript
