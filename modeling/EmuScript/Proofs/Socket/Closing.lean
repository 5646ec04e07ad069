import EmuScript.Proofs.Socket.Reads

/-!
# After a close

A closed socket should stay so until its next connection is taken. It does, except for
the completions that still arrive: a connection that comes up late connects the socket
again, and a late chunk of data asks for another read on the closed descriptor.
-/

set_option autoImplicit false

namespace EmuScript.Socket

open Program

variable {κ σ : Type}

namespace Observation

/-- The emulator has closed the descriptor. -/
def closes (observation : Observation κ) : Bool :=
  match observation.operation, observation.result with
  | .close, .ok _ => true
  | _, _ => false

/-- The emulator has taken a new connection. -/
def connects (observation : Observation κ) : Bool :=
  observation.trace.any fun
    | .asked (.socket (.connect _ _ _)) (.ok _) => true
    | _ => false

def completesConnect (observation : Observation κ) : Bool :=
  match observation.operation with
  | .deliverConnect => true
  | _ => false

def bringsData (observation : Observation κ) : Bool :=
  match observation.operation with
  | .deliverRead (some _) => true
  | _ => false

def isCompletion (observation : Observation κ) : Bool :=
  match observation.operation with
  | .deliverConnect | .deliverRead _ | .deliverWrite => true
  | _ => false

def asksRead (observation : Observation κ) : Bool :=
  0 < observation.readsTaken + observation.readsRefused

end Observation

/-- The socket was closed, and no connection was taken since. -/
def Closed (past : List (Observation κ)) : Prop :=
  ∃ earlier closing since, past = earlier ++ closing :: since ∧ closing.closes ∧
    ∀ observation ∈ since, ¬ observation.connects

/-- While it is closed the socket is not connected, and no completion asks for a read. -/
structure StaysClosed (socket : Socket κ) (history : List (Observation κ)) : Prop where
  disconnected : ∀ past, past <+: history → Closed past → (latest socket past).connected = false
  silent : ∀ past observation, past ++ [observation] <+: history → Closed past →
    observation.isCompletion → ¬ observation.asksRead

theorem closed_concat {past : List (Observation κ)} {observation : Observation κ} :
    Closed (past ++ [observation]) ↔
      observation.closes ∨ Closed past ∧ ¬ observation.connects := by
  constructor
  · rintro ⟨earlier, closing, since, split, closes, quiet⟩
    cases since using List.reverseRecOn with
    | nil =>
        obtain ⟨_, last⟩ := List.append_inj' split rfl
        cases last
        exact .inl closes
    | append_singleton since last =>
        have ends : past ++ [observation] = (earlier ++ closing :: since) ++ [last] := by
          rw [split, List.append_assoc, List.cons_append]
        obtain ⟨before, same⟩ := List.append_inj' ends rfl
        cases same
        obtain ⟨earlierQuiet, lastQuiet⟩ := List.forall_mem_append.mp quiet
        exact .inr ⟨⟨earlier, closing, since, before, closes, earlierQuiet⟩,
          lastQuiet observation (List.mem_singleton_self _)⟩
  · rintro (closes | ⟨⟨earlier, closing, since, rfl, closes, quiet⟩, last⟩)
    · exact ⟨past, observation, [], rfl, closes, by simp⟩
    · exact ⟨earlier, closing, since ++ [observation], by simp, closes,
        List.forall_mem_append.mpr ⟨quiet, by simpa using last⟩⟩

theorem closed_iff_foldl {past : List (Observation κ)} :
    Closed past ↔ past.foldl (fun closed observation =>
      observation.closes || (closed && !observation.connects)) false := by
  induction past using List.reverseRecOn with
  | nil => simp [Closed]
  | append_singleton past observation ih => simp [closed_concat, ih]

instance : DecidablePred (Closed (κ := κ)) := fun _ => decidable_of_iff _ closed_iff_foldl.symm

/-! ## One operation -/

namespace Conduct

variable {socket : Socket κ} {observation : Observation κ}

theorem disconnected_of_closes (conduct : Conduct socket observation)
    (closes : observation.closes) : observation.after.connected = false := by
  cases conduct with
  | closed => rfl
  | _ => cases closes

/-- Only a completed connection connects a socket. -/
theorem stays_disconnected (conduct : Conduct socket observation)
    (idle : socket.connected = false) (other : ¬ observation.completesConnect) :
    observation.after.connected = false := by
  cases conduct with
  | connected => exact (other rfl).elim
  | ended | closed => rfl
  | _ => exact idle

theorem connected_of_completesConnect (conduct : Conduct socket observation)
    (completes : observation.completesConnect) :
    observation.after.connected = true ∧ ¬ observation.connects := by
  cases conduct with
  | connected => simp [Observation.connects, shown]
  | _ => cases completes

/-- Among the completions it is the chunks of data that ask for a read. -/
theorem asksRead_iff (conduct : Conduct socket observation)
    (completion : observation.isCompletion) : observation.asksRead ↔ observation.bringsData := by
  cases conduct with
  | connected | ended | received | written =>
      simp [Observation.asksRead, Observation.bringsData, Observation.readsTaken,
        Observation.readsRefused, Observation.readTaken, Observation.readRefused,
        countP_readTaken_shown, countP_readRefused_shown, List.countP_cons]
  | lost | nothingWritten => exact Iff.rfl
  | _ => cases completion

end Conduct

/-! ## Whole lives -/

namespace Lives

variable {socket : Socket κ} {history : List (Observation κ)}

theorem disconnected_of_closed (lives : Lives socket history)
    (early : ∀ past observation, past ++ [observation] <+: history → Closed past →
      ¬ observation.completesConnect)
    {past : List (Observation κ)} (isPrefix : past <+: history) (closed : Closed past) :
    (latest socket past).connected = false := by
  induction past using List.reverseRecOn with
  | nil =>
      obtain ⟨earlier, closing, since, split, -⟩ := closed
      simp at split
  | append_singleton past observation ih =>
      obtain ⟨-, conduct⟩ := lives.next isPrefix
      rw [latest_append]
      obtain closes | ⟨before, -⟩ := closed_concat.mp closed
      · exact conduct.disconnected_of_closes closes
      · exact conduct.stays_disconnected
          (ih ((List.prefix_append past _).trans isPrefix) before) (early _ _ isPrefix before)

/-- A closed socket is found connected exactly where a connection is completed after the
close. -/
theorem disconnected_iff (lives : Lives socket history) :
    (∀ past, past <+: history → Closed past → (latest socket past).connected = false) ↔
      ∀ past observation, past ++ [observation] <+: history → Closed past →
        ¬ observation.completesConnect := by
  constructor
  · intro disconnected past observation isPrefix closed completes
    obtain ⟨-, conduct⟩ := lives.next isPrefix
    obtain ⟨connected, quiet⟩ := conduct.connected_of_completesConnect completes
    have idle := disconnected _ isPrefix (closed_concat.mpr (.inr ⟨closed, quiet⟩))
    rw [latest_append] at idle
    exact Bool.false_ne_true (idle.symm.trans connected)
  · intro early past isPrefix closed
    exact lives.disconnected_of_closed early isPrefix closed

theorem silent_iff (lives : Lives socket history) :
    (∀ past observation, past ++ [observation] <+: history → Closed past →
        observation.isCompletion → ¬ observation.asksRead) ↔
      ∀ past observation, past ++ [observation] <+: history → Closed past →
        ¬ observation.bringsData := by
  refine forall_congr' fun past => forall_congr' fun observation => forall_congr' fun isPrefix =>
    imp_congr_right fun closed => ?_
  obtain ⟨-, conduct⟩ := lives.next isPrefix
  constructor
  · intro silent brings
    have completion : observation.isCompletion := by
      cases conduct <;> first | rfl | cases brings
    exact silent completion ((conduct.asksRead_iff completion).mpr brings)
  · intro early completion asks
    exact early ((conduct.asksRead_iff completion).mp asks)

end Lives

/-- A socket stays closed exactly if no connection and no data arrive for it after the
close. -/
theorem stays_closed_iff (environment : HostEnvironment κ σ) (socket : Socket κ)
    (operations : List (Operation κ)) (state : σ) :
    let history := history environment operations socket state
    StaysClosed socket history ↔
      ∀ past observation, past ++ [observation] <+: history → Closed past →
        ¬ observation.completesConnect ∧ ¬ observation.bringsData := by
  intro history
  have lives : Lives socket history := history_lives operations socket state
  constructor
  · rintro ⟨disconnected, silent⟩ past observation isPrefix closed
    exact ⟨lives.disconnected_iff.mp disconnected past observation isPrefix closed,
      lives.silent_iff.mp silent past observation isPrefix closed⟩
  · intro early
    exact ⟨lives.disconnected_iff.mpr fun past observation isPrefix closed =>
        (early past observation isPrefix closed).1,
      lives.silent_iff.mpr fun past observation isPrefix closed =>
        (early past observation isPrefix closed).2⟩

/-- The connections that were taken and have not come up. -/
def outstandingConnects (past : List (Observation κ)) : Nat :=
  past.countP (·.connects) - past.countP (·.completesConnect)

/-- A connection and a read are under way while the socket is closed; both complete. -/
def closingHistory : List (Observation Nat) :=
  history (Emulator.environment Nat)
    [.connect none none 1, .onData 2, .close, .deliverConnect, .deliverRead (some [10])]
    (ofFd ⟨1⟩ false {}) {}

/-- Both completions are of requests from before the close, and both bring the socket
back. -/
theorem late_completions_revive :
    outstandingConnects (closingHistory.take 2) = 1 ∧ outstandingReads (closingHistory.take 2) = 1 ∧
    Closed (closingHistory.take 3) ∧
    (latest (ofFd ⟨1⟩ false {}) (closingHistory.take 4)).connected = true ∧
    (closingHistory.drop 4).map (·.asksRead) = [true] ∧
    ¬ StaysClosed (ofFd ⟨1⟩ false {}) closingHistory := by
  have closed : Closed (closingHistory.take 3) := by decide +kernel
  have again : Closed (closingHistory.take 4) := by decide +kernel
  have connected : (latest (ofFd ⟨1⟩ false {}) (closingHistory.take 4)).connected = true := by
    decide +kernel
  refine ⟨by decide +kernel, by decide +kernel, closed, connected, by decide +kernel, ?_⟩
  intro stays
  have idle := stays.disconnected _ (List.take_prefix 4 closingHistory) again
  exact Bool.false_ne_true (idle.symm.trans connected)

end EmuScript.Socket
