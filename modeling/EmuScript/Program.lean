/-!
# Programs

A program is a computation that asks an environment for answers and tells it
notices on the way. It is a finite tree: every sequence of answers leads to its
result after finitely many questions. What a program does in a given
environment is a separate matter, so that one program can be run against a
model, stopped at each question, or reasoned about for all answers.
-/

set_option autoImplicit false

namespace EmuScript

inductive Program (Call : Type) (Reply : Call → Type) (Notice α : Type) : Type where
  | done (value : α)
  | tell (notice : Notice) (rest : Program Call Reply Notice α)
  | ask (call : Call) (next : Reply call → Program Call Reply Notice α)

namespace Program

variable {Call : Type} {Reply : Call → Type} {Notice α β σ : Type}

def bind : Program Call Reply Notice α → (α → Program Call Reply Notice β) →
    Program Call Reply Notice β
  | done value, next => next value
  | tell notice rest, next => tell notice (rest.bind next)
  | ask call rest, next => ask call fun reply => (rest reply).bind next

instance : Monad (Program Call Reply Notice) where
  pure := done
  bind := bind

def call (question : Call) : Program Call Reply Notice (Reply question) :=
  ask question done

def notify (notice : Notice) : Program Call Reply Notice Unit :=
  tell notice (done ())

@[simp] theorem bind_done (value : α) (next : α → Program Call Reply Notice β) :
    (done value).bind next = next value := rfl

@[simp] theorem bind_tell (notice : Notice) (rest : Program Call Reply Notice α)
    (next : α → Program Call Reply Notice β) :
    (tell notice rest).bind next = tell notice (rest.bind next) := rfl

@[simp] theorem bind_ask (question : Call) (rest : Reply question → Program Call Reply Notice α)
    (next : α → Program Call Reply Notice β) :
    (ask question rest).bind next = ask question fun reply => (rest reply).bind next := rfl

theorem bind_done_right (program : Program Call Reply Notice α) : program.bind done = program := by
  induction program with
  | done value => rfl
  | tell notice rest ih => simp [ih]
  | ask question next ih => simp [ih]

theorem bind_assoc {γ : Type} (program : Program Call Reply Notice α)
    (first : α → Program Call Reply Notice β) (second : β → Program Call Reply Notice γ) :
    (program.bind first).bind second = program.bind fun value => (first value).bind second := by
  induction program with
  | done value => rfl
  | tell notice rest ih => simp [ih]
  | ask question next ih => simp [ih]

/-- An environment with states `σ`: it answers every question and takes note of
every notice. -/
structure Environment (Call : Type) (Reply : Call → Type) (Notice σ : Type) where
  answer : (call : Call) → σ → Reply call × σ
  note : Notice → σ → σ

def run (environment : Environment Call Reply Notice σ) :
    Program Call Reply Notice α → σ → α × σ
  | done value, state => (value, state)
  | tell notice rest, state => run environment rest (environment.note notice state)
  | ask call next, state =>
      let (reply, state) := environment.answer call state
      run environment (next reply) state

theorem run_bind (environment : Environment Call Reply Notice σ)
    (program : Program Call Reply Notice α) (next : α → Program Call Reply Notice β) (state : σ) :
    (program.bind next).run environment state =
      let (value, state) := program.run environment state
      (next value).run environment state := by
  induction program generalizing state with
  | done value => rfl
  | tell notice rest ih => simp [run, ih]
  | ask call rest ih => simp [run, ih]

/-- Where a program has come to when it cannot go on by itself. -/
inductive Pause (Call : Type) (Reply : Call → Type) (Notice α : Type) : Type where
  | done (value : α)
  | asking (call : Call) (next : Reply call → Program Call Reply Notice α)

/-- The notices of a program up to its end or its next question. -/
def advance : Program Call Reply Notice α → List Notice × Pause Call Reply Notice α
  | done value => ([], .done value)
  | ask call next => ([], .asking call next)
  | tell notice rest =>
      let (notices, pause) := advance rest
      (notice :: notices, pause)

end Program

end EmuScript
