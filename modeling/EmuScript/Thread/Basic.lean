import EmuScript.Host.Action

/-!
# Threads

A thread runs a procedure of the script on a thread of the emulator. It is
started once; from then on it runs or is suspended until it is stopped. A
thread that never started can be stopped without a call, a suspended one must
be resumed first. The state changes only when the emulator has done its part.
-/

set_option autoImplicit false

namespace EmuScript

structure Thread (κ : Type) where
  procedure : κ
  state : ThreadState := .ready
  /-- The thread of the emulator, once it is created. -/
  handle : Option ThreadHandle := none

namespace Thread

variable {κ : Type}

/-- The thread as diagnostic output shows it. -/
def label (thread : Thread κ) : String :=
  let handle :=
    match thread.handle with
    | none => "None"
    | some handle => "Some(ThreadHandle(" ++ toString handle.value.toNat ++ "))"
  "Thread \x7b state: " ++ thread.state.label ++ ", handle: " ++ handle ++ ", .. \x7d"

/-- Fails, with a warning, unless the state is one of those allowed. -/
def requireState (operation : String) (allowed : List ThreadState) : Update κ (Thread κ) Unit := do
  let thread ← get
  if thread.state ∈ allowed then return ()
  else
    Update.log .warn s!"thread: rejected {operation} while {thread.state.name}"
    throw (.invalidState operation thread.state)

/-- The handle of a thread in one of the allowed states. -/
def requireHandle (operation : String) (allowed : List ThreadState) :
    Update κ (Thread κ) ThreadHandle := do
  requireState operation allowed
  let thread ← get
  Update.getOrThrow thread.handle (.invalidState operation thread.state)

def enter (state : ThreadState) : Update κ (Thread κ) Unit := do
  Update.log .debug s!"thread: {(← get).state.name} -> {state.name}"
  modify fun thread => { thread with state }

/-- Creates the thread at the emulator; the procedure runs from then on. -/
def start : Update κ (Thread κ) Unit := do
  requireState "start" [.ready]
  let handle ← Update.ask (.thread (.create (← get).procedure))
  modify fun thread => { thread with handle := some handle }
  enter .running

def suspend : Update κ (Thread κ) Unit := do
  let handle ← requireHandle "suspend" [.running]
  Update.ask (.thread (.suspend handle))
  enter .suspended

def resume : Update κ (Thread κ) Unit := do
  let handle ← requireHandle "resume" [.suspended]
  Update.ask (.thread (.resume handle))
  enter .running

def stop : Update κ (Thread κ) Unit := do
  requireState "stop" [.ready, .running]
  if (← get).state = .running then
    let handle ← requireHandle "stop" [.running]
    Update.ask (.thread (.terminate handle))
  enter .stopped

/-- Creates and starts a thread for a procedure. -/
def spawn (procedure : κ) : Action κ (Thread κ) := do
  match ← (start.on { procedure } : HostProgram κ _) with
  | (.ok (), thread) => return thread
  | (.error error, _) => throw error

/-- Suspends the script itself for a while. -/
def sleep (milliseconds : UInt32) : Action κ Unit :=
  Action.ask (.thread (.sleep milliseconds))

end Thread

end EmuScript
