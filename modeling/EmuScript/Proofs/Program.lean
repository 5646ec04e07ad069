import EmuScript.Program

/-!
# Contracts of programs

A contract says which questions a program may ask, which notices it may tell and
which results it may end in, whatever the answers are. In a given environment there
is one run, and what it leads to follows the steps of the program. The trace of a run
is what the environment sees of it.
-/

set_option autoImplicit false

namespace EmuScript

structure Contract (Call Notice α : Type) where
  asks : Call → Prop := fun _ => True
  tells : Notice → Prop := fun _ => True
  ends : α → Prop := fun _ => True

namespace Program

variable {Call : Type} {Reply : Call → Type} {Notice α β : Type}

theorem bind_eq (program : Program Call Reply Notice α) (next : α → Program Call Reply Notice β) :
    program >>= next = program.bind next := rfl

theorem pure_eq (value : α) : (pure value : Program Call Reply Notice α) = done value := rfl

/-- A program keeps to a contract for all answers. -/
def Meets (contract : Contract Call Notice α) : Program Call Reply Notice α → Prop
  | done value => contract.ends value
  | tell notice rest => contract.tells notice ∧ rest.Meets contract
  | ask call next => contract.asks call ∧ ∀ reply, (next reply).Meets contract

theorem Meets.weaken {contract wider : Contract Call Notice α}
    {program : Program Call Reply Notice α} (meets : program.Meets contract)
    (asks : ∀ call, contract.asks call → wider.asks call)
    (tells : ∀ notice, contract.tells notice → wider.tells notice)
    (ends : ∀ value, contract.ends value → wider.ends value) : program.Meets wider := by
  induction program with
  | done value => exact ends value meets
  | tell notice rest ih => exact ⟨tells notice meets.1, ih meets.2⟩
  | ask call next ih => exact ⟨asks call meets.1, fun reply => ih reply (meets.2 reply)⟩

theorem Meets.and {first second : Contract Call Notice α} {program : Program Call Reply Notice α}
    (one : program.Meets first) (two : program.Meets second) :
    program.Meets {
      asks := fun call => first.asks call ∧ second.asks call
      tells := fun notice => first.tells notice ∧ second.tells notice
      ends := fun value => first.ends value ∧ second.ends value } := by
  induction program with
  | done value => exact ⟨one, two⟩
  | tell notice rest ih => exact ⟨⟨one.1, two.1⟩, ih one.2 two.2⟩
  | ask call next ih => exact ⟨⟨one.1, two.1⟩, fun reply => ih reply (one.2 reply) (two.2 reply)⟩

/-- What holds at the end in any case holds there too. -/
theorem Meets.and_ends {contract : Contract Call Notice α} {program : Program Call Reply Notice α}
    {ends : α → Prop} (meets : program.Meets contract) (also : program.Meets { ends }) :
    program.Meets { contract with ends := fun value => contract.ends value ∧ ends value } :=
  (meets.and also).weaken (fun _ => And.left) (fun _ => And.left) fun _ => id

/-- One program after another keeps to a contract if the first one does, ending
where the second one goes on to keep to it. -/
theorem meets_bind {contract : Contract Call Notice β} {program : Program Call Reply Notice α}
    {next : α → Program Call Reply Notice β} :
    (program.bind next).Meets contract ↔
      program.Meets ⟨contract.asks, contract.tells, fun value => (next value).Meets contract⟩ := by
  induction program with
  | done value => exact Iff.rfl
  | tell notice rest ih => simp only [bind_tell, Meets, ih]
  | ask call rest ih => simp only [bind_ask, Meets, ih]

theorem meets_of_ends {ends : α → Prop} (all : ∀ value, ends value)
    (program : Program Call Reply Notice α) : program.Meets { ends } := by
  induction program with
  | done value => exact all value
  | tell notice rest ih => exact ⟨trivial, ih⟩
  | ask call next ih => exact ⟨trivial, ih⟩

/-- A program that goes on to end well, whatever the first part of it ends in. -/
theorem meets_bind_of_ends {ends : β → Prop} {program : Program Call Reply Notice α}
    {next : α → Program Call Reply Notice β} (all : ∀ value, (next value).Meets { ends }) :
    (program >>= next).Meets { ends } :=
  meets_bind.mpr (meets_of_ends all program)

/-! ## Runs -/

variable {σ : Type} {environment : Environment Call Reply Notice σ} {after : α → σ → Prop}

/-- What a run of a program in an environment leads to. -/
def Leads (environment : Environment Call Reply Notice σ) (after : α → σ → Prop)
    (program : Program Call Reply Notice α) (state : σ) : Prop :=
  after (program.run environment state).1 (program.run environment state).2

theorem run_ask (environment : Environment Call Reply Notice σ) (call : Call)
    (next : Reply call → Program Call Reply Notice α) (state : σ) :
    (ask call next).run environment state =
      (next (environment.answer call state).1).run environment (environment.answer call state).2 :=
  rfl

theorem leads_ask {call : Call} {next : Reply call → Program Call Reply Notice α} {state : σ} :
    (ask call next).Leads environment after state ↔
      (next (environment.answer call state).1).Leads environment after
        (environment.answer call state).2 := Iff.rfl

theorem leads_bind {program : Program Call Reply Notice β}
    {next : β → Program Call Reply Notice α} {state : σ} :
    (program.bind next).Leads environment after state ↔
      program.Leads environment (fun value => (next value).Leads environment after) state := by
  simp only [Leads, run_bind]

theorem Leads.weaken {wider : α → σ → Prop} {program : Program Call Reply Notice α} {state : σ}
    (leads : program.Leads environment after state)
    (allowed : ∀ value state, after value state → wider value state) :
    program.Leads environment wider state :=
  allowed _ _ leads

/-! ## Traces -/

/-- What an environment sees of a program at one time. -/
inductive Happening (Call : Type) (Reply : Call → Type) (Notice : Type) where
  | asked (call : Call) (reply : Reply call)
  | told (notice : Notice)

def trace (environment : Environment Call Reply Notice σ) :
    Program Call Reply Notice α → σ → List (Happening Call Reply Notice)
  | done _, _ => []
  | tell notice rest, state => .told notice :: rest.trace environment (environment.note notice state)
  | ask call next, state =>
      let (reply, state) := environment.answer call state
      .asked call reply :: (next reply).trace environment state

theorem trace_ask (environment : Environment Call Reply Notice σ) (call : Call)
    (next : Reply call → Program Call Reply Notice α) (state : σ) :
    (ask call next).trace environment state =
      .asked call (environment.answer call state).1 ::
        (next (environment.answer call state).1).trace environment
          (environment.answer call state).2 := rfl

theorem trace_bind (environment : Environment Call Reply Notice σ)
    (program : Program Call Reply Notice α) (next : α → Program Call Reply Notice β) (state : σ) :
    (program.bind next).trace environment state =
      program.trace environment state ++
        (next (program.run environment state).1).trace environment
          (program.run environment state).2 := by
  induction program generalizing state with
  | done value => rfl
  | tell notice rest ih => simp [trace, run, ih]
  | ask call rest ih => simp [trace, run, ih]

/-- The question of a happening. -/
def Happening.call? : Happening Call Reply Notice → Option Call
  | asked call _ => some call
  | told _ => none

/-- The questions that are asked in a run. -/
def questions (environment : Environment Call Reply Notice σ) (program : Program Call Reply Notice α)
    (state : σ) : List Call :=
  (program.trace environment state).filterMap Happening.call?

@[simp] theorem questions_done (environment : Environment Call Reply Notice σ) (value : α)
    (state : σ) : (done value : Program Call Reply Notice α).questions environment state = [] := rfl

@[simp] theorem questions_tell (environment : Environment Call Reply Notice σ) (notice : Notice)
    (rest : Program Call Reply Notice α) (state : σ) :
    (tell notice rest).questions environment state =
      rest.questions environment (environment.note notice state) := rfl

@[simp] theorem questions_ask (environment : Environment Call Reply Notice σ) (call : Call)
    (next : Reply call → Program Call Reply Notice α) (state : σ) :
    (ask call next).questions environment state =
      call :: (next (environment.answer call state).1).questions environment
        (environment.answer call state).2 := rfl

theorem questions_bind (environment : Environment Call Reply Notice σ)
    (program : Program Call Reply Notice α) (next : α → Program Call Reply Notice β) (state : σ) :
    (program.bind next).questions environment state =
      program.questions environment state ++
        (next (program.run environment state).1).questions environment
          (program.run environment state).2 := by
  simp [questions, trace_bind]

def Happening.Within (contract : Contract Call Notice α) : Happening Call Reply Notice → Prop
  | asked call _ => contract.asks call
  | told notice => contract.tells notice

/-- A run of a program that keeps to a contract shows nothing but what the contract
allows. -/
theorem Meets.run_trace {contract : Contract Call Notice α} {program : Program Call Reply Notice α}
    (meets : program.Meets contract) (environment : Environment Call Reply Notice σ) (state : σ) :
    contract.ends (program.run environment state).1 ∧
      ∀ happening ∈ program.trace environment state, happening.Within contract := by
  induction program generalizing state with
  | done value => exact ⟨meets, by simp [trace]⟩
  | tell notice rest ih =>
      obtain ⟨told, meets⟩ := meets
      obtain ⟨ends, within⟩ := ih meets (environment.note notice state)
      exact ⟨ends, List.forall_mem_cons.mpr ⟨told, within⟩⟩
  | ask call next ih =>
      obtain ⟨asked, meets⟩ := meets
      obtain ⟨ends, within⟩ := ih _ (meets _) (environment.answer call state).2
      exact ⟨ends, List.forall_mem_cons.mpr ⟨asked, within⟩⟩

end Program

end EmuScript
