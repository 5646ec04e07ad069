import EmuScript.Proofs.Host
import EmuScript.Thread.Basic

/-!
# The life of a thread

Whatever is tried with a thread, and whatever the emulator refuses, the calls that
succeed follow one course: the thread is created, it is suspended and resumed any
number of times, and it is terminated while it runs. The state and the handle are what
these calls make them, and only a thread that was never created is stopped without one.
-/

set_option autoImplicit false

namespace EmuScript.Thread

open Program

variable {κ σ : Type}

inductive Operation where
  | start | suspend | resume | stop
  deriving DecidableEq

namespace Operation

def update : Operation → Update κ (Thread κ) Unit
  | start => Thread.start
  | suspend => Thread.suspend
  | resume => Thread.resume
  | stop => Thread.stop

def name : Operation → String
  | start => "start"
  | suspend => "suspend"
  | resume => "resume"
  | stop => "stop"

/-- The states in which an operation may be carried out. -/
def allowed : Operation → List ThreadState
  | start => [.ready]
  | suspend => [.running]
  | resume => [.suspended]
  | stop => [.ready, .running]

end Operation

/-! ## Histories -/

/-- A call that succeeded at the emulator. -/
inductive Deed (κ : Type) where
  | created (procedure : κ) (handle : ThreadHandle)
  | suspended (handle : ThreadHandle)
  | resumed (handle : ThreadHandle)
  | terminated (handle : ThreadHandle)
  deriving DecidableEq

namespace Deed

def handle : Deed κ → ThreadHandle
  | created _ handle | suspended handle | resumed handle | terminated handle => handle

/-- The state into which a call brings a thread. -/
def state : Deed κ → ThreadState
  | created _ _ | resumed _ => .running
  | suspended _ => .suspended
  | terminated _ => .stopped

def shown? : Happening (HostCall κ) HostCall.Reply (Notice κ) → Option (Deed κ)
  | .asked (.thread (.create procedure)) (.ok handle) => some (.created procedure handle)
  | .asked (.thread (.suspend handle)) (.ok _) => some (.suspended handle)
  | .asked (.thread (.resume handle)) (.ok _) => some (.resumed handle)
  | .asked (.thread (.terminate handle)) (.ok _) => some (.terminated handle)
  | _ => none

end Deed

/-- The call that an operation makes for a thread. -/
def Operation.deed (procedure : κ) (handle : ThreadHandle) : Operation → Deed κ
  | start => .created procedure handle
  | suspend => .suspended handle
  | resume => .resumed handle
  | stop => .terminated handle

/-- The calls for a thread that runs and has paused so many times. -/
def course (procedure : κ) (handle : ThreadHandle) (pauses : Nat) : List (Deed κ) :=
  .created procedure handle :: (List.replicate pauses [.suspended handle, .resumed handle]).flatten

def stateAfter (deeds : List (Deed κ)) : ThreadState :=
  (deeds.getLast?.map Deed.state).getD .ready

def handleAfter (deeds : List (Deed κ)) : Option ThreadHandle :=
  deeds.head?.map Deed.handle

/-- An operation as it took place: what it did to the thread, and what the emulator saw
of it meanwhile. -/
structure Observation (κ : Type) where
  operation : Operation
  before : Thread κ
  trace : List (Happening (HostCall κ) HostCall.Reply (Notice κ))
  result : Except ScriptError Unit
  after : Thread κ

namespace Observation

def deeds (observation : Observation κ) : List (Deed κ) :=
  observation.trace.filterMap Deed.shown?

def callsEmulator (observation : Observation κ) : Bool :=
  observation.trace.any fun
    | .asked _ _ => true
    | .told _ => false

/-- A thread is stopped without a call. -/
def abandons (observation : Observation κ) : Bool :=
  observation.operation = .stop && observation.result.isOk && !observation.callsEmulator

end Observation

variable (environment : HostEnvironment κ σ)

def Operation.observed (operation : Operation) (thread : Thread κ) (state : σ) : Observation κ :=
  let program := operation.update.on thread
  let ended := (program.run environment state).1
  ⟨operation, thread, program.trace environment state, ended.1, ended.2⟩

/-- Operations on a thread, one after another. -/
def history : List Operation → Thread κ → σ → List (Observation κ)
  | [], _, _ => []
  | operation :: rest, thread, state =>
      let observation := operation.observed environment thread state
      observation :: history rest observation.after
        ((operation.update.on thread).run environment state).2

/-- The thread after a history. -/
def latest : Thread κ → List (Observation κ) → Thread κ
  | thread, [] => thread
  | _, observation :: rest => latest observation.after rest

/-! ## Programs -/

theorem forbidden_on (operation : Operation) (thread : Thread κ)
    (wrong : thread.state ∉ operation.allowed) :
    (operation.update : Update κ (Thread κ) Unit).on thread =
      .tell (.log ⟨.warn, s!"thread: rejected {operation.name} while {thread.state.name}"⟩)
        (.done (.error (.invalidState operation.name thread.state), thread)) := by
  cases thread with
  | mk procedure threadState handle =>
      cases operation <;> cases threadState <;>
        first | rfl | exact (wrong (by simp [Operation.allowed])).elim

theorem start_on (thread : Thread κ) (ready : thread.state = .ready) :
    start.on thread =
      .ask (.thread (.create thread.procedure)) fun
        | .ok handle =>
            .tell (.log ⟨.debug, "thread: ready -> running"⟩)
              (.done (.ok (), ⟨thread.procedure, .running, some handle⟩))
        | .error error => .done (.error (.host error), thread) := by
  cases thread
  cases ready
  refine congrArg (Program.ask _) (funext fun reply => ?_)
  cases reply with
  | ok handle => rfl
  | error error => rfl

theorem suspend_on (thread : Thread κ) (handle : ThreadHandle)
    (running : thread.state = .running) (stored : thread.handle = some handle) :
    suspend.on thread =
      .ask (.thread (.suspend handle)) fun
        | .ok () =>
            .tell (.log ⟨.debug, "thread: running -> suspended"⟩)
              (.done (.ok (), { thread with state := .suspended }))
        | .error error => .done (.error (.host error), thread) := by
  cases thread
  cases running
  cases stored
  refine congrArg (Program.ask _) (funext fun reply => ?_)
  cases reply with
  | ok value => rfl
  | error error => rfl

theorem resume_on (thread : Thread κ) (handle : ThreadHandle)
    (suspended : thread.state = .suspended) (stored : thread.handle = some handle) :
    resume.on thread =
      .ask (.thread (.resume handle)) fun
        | .ok () =>
            .tell (.log ⟨.debug, "thread: suspended -> running"⟩)
              (.done (.ok (), { thread with state := .running }))
        | .error error => .done (.error (.host error), thread) := by
  cases thread
  cases suspended
  cases stored
  refine congrArg (Program.ask _) (funext fun reply => ?_)
  cases reply with
  | ok value => rfl
  | error error => rfl

theorem stop_on_running (thread : Thread κ) (handle : ThreadHandle)
    (running : thread.state = .running) (stored : thread.handle = some handle) :
    stop.on thread =
      .ask (.thread (.terminate handle)) fun
        | .ok () =>
            .tell (.log ⟨.debug, "thread: running -> stopped"⟩)
              (.done (.ok (), { thread with state := .stopped }))
        | .error error => .done (.error (.host error), thread) := by
  cases thread
  cases running
  cases stored
  refine congrArg (Program.ask _) (funext fun reply => ?_)
  cases reply with
  | ok value => rfl
  | error error => rfl

theorem stop_on_ready (thread : Thread κ) (ready : thread.state = .ready) :
    stop.on thread =
      .tell (.log ⟨.debug, "thread: ready -> stopped"⟩)
        (.done (.ok (), { thread with state := .stopped })) := by
  cases thread
  cases ready
  rfl

/-! ## Outcomes -/

/-- The outcomes of the operations on a thread. -/
inductive Conduct (thread : Thread κ) : Observation κ → Prop where
  | forbidden (operation : Operation) (wrong : thread.state ∉ operation.allowed) :
      Conduct thread ⟨operation, thread,
        [.told (.log ⟨.warn, s!"thread: rejected {operation.name} while {thread.state.name}"⟩)],
        .error (.invalidState operation.name thread.state), thread⟩
  | refused (operation : Operation) (call : ThreadCall κ) (error : HostError)
      (right : thread.state ∈ operation.allowed) :
      Conduct thread ⟨operation, thread, [.asked (.thread call) (.error error)],
        .error (.host error), thread⟩
  | created (handle : ThreadHandle) (ready : thread.state = .ready) :
      Conduct thread ⟨.start, thread,
        [.asked (.thread (.create thread.procedure)) (.ok handle),
          .told (.log ⟨.debug, "thread: ready -> running"⟩)],
        .ok (), ⟨thread.procedure, .running, some handle⟩⟩
  | suspended (handle : ThreadHandle) (running : thread.state = .running)
      (stored : thread.handle = some handle) :
      Conduct thread ⟨.suspend, thread,
        [.asked (.thread (.suspend handle)) (.ok ()),
          .told (.log ⟨.debug, "thread: running -> suspended"⟩)],
        .ok (), { thread with state := .suspended }⟩
  | resumed (handle : ThreadHandle) (suspended : thread.state = .suspended)
      (stored : thread.handle = some handle) :
      Conduct thread ⟨.resume, thread,
        [.asked (.thread (.resume handle)) (.ok ()),
          .told (.log ⟨.debug, "thread: suspended -> running"⟩)],
        .ok (), { thread with state := .running }⟩
  | terminated (handle : ThreadHandle) (running : thread.state = .running)
      (stored : thread.handle = some handle) :
      Conduct thread ⟨.stop, thread,
        [.asked (.thread (.terminate handle)) (.ok ()),
          .told (.log ⟨.debug, "thread: running -> stopped"⟩)],
        .ok (), { thread with state := .stopped }⟩
  | abandoned (ready : thread.state = .ready) :
      Conduct thread ⟨.stop, thread, [.told (.log ⟨.debug, "thread: ready -> stopped"⟩)],
        .ok (), { thread with state := .stopped }⟩

variable {environment} {thread : Thread κ} {observation : Observation κ}

theorem Operation.observed_conduct (operation : Operation)
    (started : thread.state = .running ∨ thread.state = .suspended → thread.handle.isSome)
    (state : σ) : Conduct thread (operation.observed environment thread state) := by
  by_cases right : thread.state ∈ operation.allowed
  case neg =>
    rw [Operation.observed, forbidden_on operation thread right]
    exact .forbidden operation right
  cases operation with
  | start =>
      have ready : thread.state = .ready := by simpa [allowed] using right
      rw [Operation.observed, Operation.update, start_on thread ready]
      simp only [run_ask, trace]
      cases (environment.answer (.thread (.create thread.procedure)) state).1 with
      | ok handle => exact .created handle ready
      | error error => exact .refused .start _ error right
  | suspend =>
      have running : thread.state = .running := by simpa [allowed] using right
      obtain ⟨handle, stored⟩ := Option.isSome_iff_exists.mp (started (.inl running))
      rw [Operation.observed, Operation.update, suspend_on thread handle running stored]
      simp only [run_ask, trace]
      cases (environment.answer (.thread (.suspend handle)) state).1 with
      | ok value => exact .suspended handle running stored
      | error error => exact .refused .suspend _ error right
  | resume =>
      have suspended : thread.state = .suspended := by simpa [allowed] using right
      obtain ⟨handle, stored⟩ := Option.isSome_iff_exists.mp (started (.inr suspended))
      rw [Operation.observed, Operation.update, resume_on thread handle suspended stored]
      simp only [run_ask, trace]
      cases (environment.answer (.thread (.resume handle)) state).1 with
      | ok value => exact .resumed handle suspended stored
      | error error => exact .refused .resume _ error right
  | stop =>
      obtain ready | running : thread.state = .ready ∨ thread.state = .running := by
        simpa [allowed] using right
      · rw [Operation.observed, Operation.update, stop_on_ready thread ready]
        exact .abandoned ready
      · obtain ⟨handle, stored⟩ := Option.isSome_iff_exists.mp (started (.inl running))
        rw [Operation.observed, Operation.update, stop_on_running thread handle running stored]
        simp only [run_ask, trace]
        cases (environment.answer (.thread (.terminate handle)) state).1 with
        | ok value => exact .terminated handle running stored
        | error error => exact .refused .stop _ error right

namespace Conduct

theorem before_eq (conduct : Conduct thread observation) : observation.before = thread := by
  cases conduct <;> rfl

theorem of_forbidden (conduct : Conduct thread observation)
    (wrong : thread.state ∉ observation.operation.allowed) :
    observation.callsEmulator = false ∧
      observation.result = .error (.invalidState observation.operation.name thread.state) := by
  cases conduct with
  | forbidden => exact ⟨rfl, rfl⟩
  | refused operation call error right => exact (wrong right).elim
  | created handle ready => simp [Operation.allowed, ready] at wrong
  | suspended handle running stored => simp [Operation.allowed, running] at wrong
  | resumed handle suspended stored => simp [Operation.allowed, suspended] at wrong
  | terminated handle running stored => simp [Operation.allowed, running] at wrong
  | abandoned ready => simp [Operation.allowed, ready] at wrong

/-- An operation in its place fails only if the emulator does. -/
theorem of_allowed (conduct : Conduct thread observation)
    (right : thread.state ∈ observation.operation.allowed) :
    observation.result = .ok () ∨ ∃ error, observation.result = .error (.host error) := by
  cases conduct with
  | forbidden operation wrong => exact (wrong right).elim
  | refused operation call error right => exact .inr ⟨error, rfl⟩
  | _ => exact .inl rfl

/-- An operation succeeds by its own call at the emulator, unless it stops a thread that was
never started. -/
theorem of_ok (conduct : Conduct thread observation) (succeeded : observation.result = .ok ()) :
    (observation.operation = .stop ∧ thread.state = .ready ∧ observation.callsEmulator = false) ∨
      ∃ handle, observation.after.handle = some handle ∧
        observation.deeds = [observation.operation.deed thread.procedure handle] := by
  cases conduct with
  | forbidden | refused => cases succeeded
  | created handle ready => exact .inr ⟨handle, rfl, rfl⟩
  | suspended handle running stored => exact .inr ⟨handle, stored, rfl⟩
  | resumed handle suspended stored => exact .inr ⟨handle, stored, rfl⟩
  | terminated handle running stored => exact .inr ⟨handle, stored, rfl⟩
  | abandoned ready => exact .inl ⟨rfl, ready, rfl⟩

/-- A failed operation leaves nothing behind. -/
theorem of_error (conduct : Conduct thread observation) {error : ScriptError}
    (failed : observation.result = .error error) :
    observation.after = thread ∧ observation.deeds = [] ∧ observation.abandons = false := by
  cases conduct with
  | forbidden operation wrong => exact ⟨rfl, rfl, by cases operation <;> rfl⟩
  | refused operation call error right =>
      exact ⟨rfl, by cases call <;> rfl, by cases operation <;> rfl⟩
  | _ => cases failed

theorem of_stopped (conduct : Conduct thread observation) (stopped : thread.state = .stopped) :
    observation.callsEmulator = false ∧ observation.after = thread := by
  have wrong : thread.state ∉ observation.operation.allowed := by
    rw [stopped]
    cases observation.operation <;> simp [Operation.allowed]
  obtain ⟨silent, failed⟩ := conduct.of_forbidden wrong
  exact ⟨silent, (conduct.of_error failed).1⟩

end Conduct

/-! ## Stages -/

/-- Where a thread stands after the calls that have succeeded, and whether it was stopped
without one. -/
inductive Stage (procedure : κ) : List (Deed κ) → Bool → Thread κ → Prop where
  | ready : Stage procedure [] false ⟨procedure, .ready, none⟩
  | abandoned : Stage procedure [] true ⟨procedure, .stopped, none⟩
  | running (handle : ThreadHandle) (pauses : Nat) :
      Stage procedure (course procedure handle pauses) false ⟨procedure, .running, some handle⟩
  | suspended (handle : ThreadHandle) (pauses : Nat) :
      Stage procedure (course procedure handle pauses ++ [.suspended handle]) false
        ⟨procedure, .suspended, some handle⟩
  | stopped (handle : ThreadHandle) (pauses : Nat) :
      Stage procedure (course procedure handle pauses ++ [.terminated handle]) false
        ⟨procedure, .stopped, some handle⟩

theorem course_succ (procedure : κ) (handle : ThreadHandle) (pauses : Nat) :
    course procedure handle (pauses + 1) =
      course procedure handle pauses ++ [.suspended handle, .resumed handle] := by
  simp [course, List.replicate_succ']

theorem stateAfter_concat (deeds : List (Deed κ)) (deed : Deed κ) :
    stateAfter (deeds ++ [deed]) = deed.state := by
  simp [stateAfter]

theorem stateAfter_course (procedure : κ) (handle : ThreadHandle) (pauses : Nat) :
    stateAfter (course procedure handle pauses) = .running := by
  cases pauses with
  | zero => rfl
  | succ pauses =>
      have ends : course procedure handle (pauses + 1) =
          (course procedure handle pauses ++ [.suspended handle]) ++ [.resumed handle] := by
        simp [course_succ]
      rw [ends, stateAfter_concat]
      rfl

namespace Stage

variable {procedure : κ} {deeds : List (Deed κ)} {abandoned : Bool}

/-- A thread that runs or is suspended has its handle. -/
theorem handle_isSome (stage : Stage procedure deeds abandoned thread)
    (started : thread.state = .running ∨ thread.state = .suspended) : thread.handle.isSome := by
  cases stage with
  | ready | abandoned => simp at started
  | running | suspended | stopped => rfl

theorem follows_course (stage : Stage procedure deeds abandoned thread) :
    ∃ handle pauses, deeds <+: course procedure handle pauses ++ [.terminated handle] := by
  cases stage with
  | ready | abandoned => exact ⟨⟨0⟩, 0, List.nil_prefix⟩
  | running handle pauses => exact ⟨handle, pauses, List.prefix_append _ _⟩
  | suspended handle pauses =>
      refine ⟨handle, pauses + 1, ?_⟩
      rw [course_succ]
      exact ⟨[.resumed handle, .terminated handle], by simp⟩
  | stopped handle pauses => exact ⟨handle, pauses, List.prefix_refl _⟩

theorem handle_eq (stage : Stage procedure deeds abandoned thread) :
    thread.handle = handleAfter deeds := by
  cases stage <;> rfl

theorem state_eq (stage : Stage procedure deeds abandoned thread) :
    thread.state = if abandoned then .stopped else stateAfter deeds := by
  cases stage with
  | ready | abandoned => rfl
  | running handle pauses => exact (stateAfter_course procedure handle pauses).symm
  | suspended handle pauses => exact (stateAfter_concat _ (.suspended handle)).symm
  | stopped handle pauses => exact (stateAfter_concat _ (.terminated handle)).symm

theorem deeds_of_abandoned (stage : Stage procedure deeds abandoned thread)
    (stopped : abandoned = true) : deeds = [] := by
  cases stage with
  | abandoned => rfl
  | _ => cases stopped

theorem next (stage : Stage procedure deeds abandoned thread)
    (conduct : Conduct thread observation) :
    Stage procedure (deeds ++ observation.deeds) (abandoned || observation.abandons)
      observation.after := by
  cases failed : observation.result with
  | error error =>
      obtain ⟨after, nothing, silent⟩ := conduct.of_error failed
      simpa [after, nothing, silent] using stage
  | ok value =>
  -- Every success belongs to one stage; at the others it disagrees on the state.
  cases conduct with
  | forbidden | refused => cases failed
  | created handle ready =>
      cases stage with
      | ready => exact .running handle 0
      | _ => cases ready
  | suspended handle running stored =>
      cases stage with
      | running handle pauses =>
          cases stored
          exact .suspended handle pauses
      | _ => cases running
  | resumed handle suspended stored =>
      cases stage with
      | suspended handle pauses =>
          cases stored
          have again : course procedure handle pauses ++ [.suspended handle] ++ [.resumed handle] =
              course procedure handle (pauses + 1) := by simp [course_succ]
          exact again ▸ .running handle (pauses + 1)
      | _ => cases suspended
  | terminated handle running stored =>
      cases stage with
      | running handle pauses =>
          cases stored
          exact .stopped handle pauses
      | _ => cases running
  | abandoned ready =>
      cases stage with
      | ready => exact .abandoned
      | _ => cases ready

end Stage

/-! ## Lives -/

/-- The observations are those of one thread, each beginning where the one before has
ended. -/
def Lives : Thread κ → List (Observation κ) → Prop
  | _, [] => True
  | thread, observation :: rest => Conduct thread observation ∧ Lives observation.after rest

theorem history_lives {procedure : κ} {deeds : List (Deed κ)} {abandoned : Bool}
    (stage : Stage procedure deeds abandoned thread) (operations : List Operation) (state : σ) :
    Lives thread (history environment operations thread state) := by
  induction operations generalizing thread deeds abandoned state with
  | nil => exact trivial
  | cons operation rest ih =>
      have conduct : Conduct thread (operation.observed environment thread state) :=
        operation.observed_conduct stage.handle_isSome state
      exact ⟨conduct, ih (stage.next conduct) _⟩

namespace Lives

variable {history : List (Observation κ)}

theorem stage {procedure : κ} {deeds : List (Deed κ)} {abandoned : Bool}
    (lives : Lives thread history) (first : Stage procedure deeds abandoned thread) :
    Stage procedure (deeds ++ history.flatMap (·.deeds))
      (abandoned || history.any (·.abandons)) (latest thread history) := by
  induction history generalizing thread deeds abandoned with
  | nil => simpa [latest] using first
  | cons observation rest ih =>
      obtain ⟨conduct, later⟩ := lives
      simpa [latest, Bool.or_assoc] using ih later (first.next conduct)

theorem of_append {earlier later : List (Observation κ)}
    (lives : Lives thread (earlier ++ later)) : Lives (latest thread earlier) later := by
  induction earlier generalizing thread with
  | nil => exact lives
  | cons observation rest ih => exact ih lives.2

theorem conduct_of_mem (lives : Lives thread history) :
    ∀ observation ∈ history, Conduct observation.before observation := by
  induction history generalizing thread with
  | nil => simp
  | cons observation rest ih =>
      obtain ⟨conduct, later⟩ := lives
      refine List.forall_mem_cons.mpr ⟨?_, ih later⟩
      rw [conduct.before_eq]
      exact conduct

theorem silent_of_stopped (lives : Lives thread history) (stopped : thread.state = .stopped) :
    ∀ observation ∈ history, observation.callsEmulator = false ∧ observation.after = thread := by
  induction history with
  | nil => simp
  | cons observation rest ih =>
      obtain ⟨conduct, later⟩ := lives
      obtain ⟨silent, same⟩ := conduct.of_stopped stopped
      rw [same] at later
      exact List.forall_mem_cons.mpr ⟨⟨silent, same⟩, ih later⟩

end Lives

/-- The calls that succeed follow the course of a thread, and the state and the handle
are what they make them. An operation out of its place calls nothing, one in its place
fails only if the emulator does, one that succeeds has made its own call unless it stops a
thread that was never started, a failed one leaves the thread as it is, and a stopped thread
never calls the emulator again. -/
theorem lifecycle_followed (environment : HostEnvironment κ σ) (procedure : κ)
    (operations : List Operation) (state : σ) :
    let history := history environment operations { procedure } state
    let thread := latest { procedure } history
    let deeds := history.flatMap (·.deeds)
    let abandoned := history.any (·.abandons)
    (∃ handle pauses, deeds <+: course procedure handle pauses ++ [.terminated handle]) ∧
    thread.handle = handleAfter deeds ∧
    thread.state = (if abandoned then .stopped else stateAfter deeds) ∧
    (abandoned = true → deeds = []) ∧
    (thread.state = .running ∨ thread.state = .suspended → thread.handle.isSome) ∧
    (∀ observation ∈ history,
      (observation.before.state ∉ observation.operation.allowed →
        observation.callsEmulator = false ∧ observation.result =
          .error (.invalidState observation.operation.name observation.before.state)) ∧
      (observation.before.state ∈ observation.operation.allowed →
        observation.result = .ok () ∨ ∃ error, observation.result = .error (.host error)) ∧
      (observation.result = .ok () →
        (observation.operation = .stop ∧ observation.before.state = .ready ∧
          observation.callsEmulator = false) ∨
        ∃ handle, observation.after.handle = some handle ∧
          observation.deeds = [observation.operation.deed observation.before.procedure handle]) ∧
      ∀ error, observation.result = .error error → observation.after = observation.before) ∧
    ∀ earlier later, history = earlier ++ later →
      (latest { procedure } earlier).state = .stopped →
        ∀ observation ∈ later, observation.callsEmulator = false ∧
          observation.after.state = .stopped := by
  intro history thread deeds abandoned
  have lives : Lives { procedure } history := history_lives .ready operations state
  have stage : Stage procedure deeds abandoned thread := lives.stage .ready
  refine ⟨stage.follows_course, stage.handle_eq, stage.state_eq, stage.deeds_of_abandoned,
    stage.handle_isSome, ?_, ?_⟩
  · intro observation observed
    have conduct := lives.conduct_of_mem observation observed
    exact ⟨conduct.of_forbidden, conduct.of_allowed, conduct.of_ok,
      fun error failed => (conduct.of_error failed).1⟩
  · intro earlier later split stopped observation observed
    have rest : Lives (latest { procedure } earlier) later := (split ▸ lives).of_append
    obtain ⟨silent, same⟩ := rest.silent_of_stopped stopped observation observed
    exact ⟨silent, same ▸ stopped⟩

end EmuScript.Thread
