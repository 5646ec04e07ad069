import EmuScript.Proofs.Socket.Closing

/-!
# Completions of connections

A socket keeps one connect handler, that of the connection which was taken last, and every
connection that comes up runs it. So the connections that come up run the handlers given
with them, each its own and in order, if no other connection is under way meanwhile; with
two of them under way the older one runs the handler of the newer one.
-/

set_option autoImplicit false

namespace EmuScript.Socket

open Program

variable {κ σ : Type}

/-- The connect handler that comes with an operation. -/
def Operation.connector? : Operation κ → Option κ
  | connect _ _ handler => some handler
  | _ => none

namespace Observation

/-- The handler that came with a connection, once the emulator has taken it. -/
def connector? (observation : Observation κ) : Option κ :=
  if observation.connects then observation.operation.connector? else none

/-- The connect handlers that an operation runs. -/
def connectCalls (observation : Observation κ) : List κ :=
  observation.signals.filterMap fun
    | .connected handler => some handler
    | _ => none

end Observation

/-- The handlers of the connections that were taken, in their order. -/
def connectors (past : List (Observation κ)) : List κ :=
  past.filterMap (·.connector?)

/-- The handlers of the connections that were taken and have not come up, oldest first. -/
def awaiting (past : List (Observation κ)) : List κ :=
  (connectors past).drop (past.countP (·.completesConnect))

/-- The emulator completes no connection that is not under way. -/
def CompletesTaken (history : List (Observation κ)) : Prop :=
  ∀ past observation, past ++ [observation] <+: history → observation.completesConnect →
    0 < outstandingConnects past

theorem forall_prefix_concat_iff {α : Type} {items : List α} {holds : List α → α → Prop} :
    (∀ past next, past ++ [next] <+: items → holds past next) ↔
      ∀ index (bound : index < items.length), holds (items.take index) items[index] := by
  constructor
  · intro all index bound
    apply all
    rw [← List.take_succ_eq_append_getElem bound]
    exact List.take_prefix _ _
  · rintro all past next ⟨later, rfl⟩
    have found := all past.length (by simp)
    simpa using found

instance : DecidablePred (CompletesTaken (κ := κ)) := fun _ =>
  decidable_of_iff' _ forall_prefix_concat_iff

/-- Each connection that comes up runs the handler that came with it, and only that one. -/
def AnswersOwn (history : List (Observation κ)) : Prop :=
  (history.filter (·.completesConnect)).map (·.connectCalls) =
    ((connectors history).take (history.countP (·.completesConnect))).map fun handler => [handler]

/-! ## One operation -/

namespace Conduct

variable {socket : Socket κ} {observation : Observation κ}

theorem connector_after (conduct : Conduct socket observation) :
    observation.after.connectHandler = observation.connector?.or socket.connectHandler := by
  cases conduct with
  | connected | ended | received | written => simp [Observation.connector?, Operation.connector?]
  | _ => rfl

/-- A connection that comes up runs the connect handler, and nothing else does. -/
theorem connectCalls_eq (conduct : Conduct socket observation) :
    observation.connectCalls =
      if observation.completesConnect then socket.connectHandler.toList else [] := by
  cases conduct with
  | connected => cases handler : socket.connectHandler <;> rfl
  | ended record => cases handler : socket.closeHandler <;> rfl
  | received data => cases handler : socket.dataHandler <;> rfl
  | written handler rest pending => cases handler <;> rfl
  | _ => rfl

theorem isSome_connector (conduct : Conduct socket observation) :
    observation.connector?.isSome = observation.connects := by
  cases conduct with
  | connected => cases handler : socket.connectHandler <;> simp [Observation.connector?, Observation.connects, shown]
  | ended record => cases handler : socket.closeHandler <;> rfl
  | received data => cases handler : socket.dataHandler <;> rfl
  | written handler rest pending => cases handler <;> rfl
  | _ => rfl

/-- An operation that completes a connection takes none. -/
theorem connector_of_completesConnect (conduct : Conduct socket observation)
    (completes : observation.completesConnect) : observation.connector? = none := by
  cases conduct with
  | connected => simp [Observation.connector?, Operation.connector?]
  | _ => cases completes

end Conduct

/-! ## Whole lives -/

theorem connectors_concat (past : List (Observation κ)) (observation : Observation κ) :
    connectors (past ++ [observation]) = connectors past ++ observation.connector?.toList := by
  cases taken : observation.connector? <;> simp [connectors, taken]

namespace Lives

variable {socket : Socket κ} {history : List (Observation κ)}

/-- The connect handler is that of the connection that was taken last. -/
theorem connector_eq (lives : Lives socket history) :
    (latest socket history).connectHandler =
      (connectors history).getLast?.or socket.connectHandler := by
  refine lives.preserves (fun past later => later.connectHandler =
    (connectors past).getLast?.or socket.connectHandler) rfl ?_
  intro past later observation before conduct
  rw [conduct.connector_after, before, connectors_concat]
  cases taken : observation.connector? <;> simp

theorem length_connectors (lives : Lives socket history) :
    (connectors history).length = history.countP (·.connects) := by
  refine lives.preserves (fun past _ => (connectors past).length = past.countP (·.connects))
    rfl ?_
  intro past later observation before conduct
  rw [connectors_concat, countP_concat, List.length_append, before, ← conduct.isSome_connector]
  cases observation.connector? <;> rfl

theorem length_awaiting (lives : Lives socket history) :
    (awaiting history).length = outstandingConnects history := by
  rw [awaiting, List.length_drop, lives.length_connectors, outstandingConnects]

end Lives

/-- The connections that came up never outnumber those that were taken. -/
theorem CompletesTaken.countP_le {history past : List (Observation κ)}
    (completes : CompletesTaken history) (isPrefix : past <+: history) :
    past.countP (·.completesConnect) ≤ past.countP (·.connects) := by
  refine countP_le_of_taken (fun earlier observation => ?_) (fun earlier observation => ?_) isPrefix
  · rw [countP_concat]
    exact Nat.le_add_right _ _
  · intro before completed
    exact Nat.lt_of_sub_pos (completes earlier observation before completed)

namespace Lives

variable {socket : Socket κ} {history past : List (Observation κ)} {observation : Observation κ}

/-- A connection that comes up runs the handler of the one that was taken last. -/
theorem connectCalls_eq (lives : Lives socket history) (blank : socket.connectHandler = none)
    (isPrefix : past ++ [observation] <+: history) :
    observation.connectCalls =
      if observation.completesConnect then (connectors past).getLast?.toList else [] := by
  obtain ⟨before, conduct⟩ := lives.next isPrefix
  rw [conduct.connectCalls_eq, before.connector_eq, blank, Option.or_none]

/-- The oldest and the newest of the connections under way, where one is. -/
theorem awaiting_ends (lives : Lives socket past) (outstanding : 0 < outstandingConnects past) :
    ∃ own newest, (connectors past)[past.countP (·.completesConnect)]? = some own ∧
      (connectors past).getLast? = some newest ∧
      ((awaiting past).head? = (awaiting past).getLast? ↔ own = newest) := by
  have bound : past.countP (·.completesConnect) < (connectors past).length := by
    rw [lives.length_connectors]
    simp only [outstandingConnects] at outstanding
    omega
  have present : connectors past ≠ [] := List.ne_nil_of_length_pos (by omega)
  refine ⟨(connectors past)[past.countP (·.completesConnect)],
    (connectors past).getLast present, List.getElem?_eq_getElem bound,
    List.getLast?_eq_some_getLast present, ?_⟩
  rw [awaiting, List.head?_drop, List.getLast?_drop, if_neg (by omega),
    List.getElem?_eq_getElem bound, List.getLast?_eq_some_getLast present, Option.some.injEq]

/-- One more operation runs the handler of its own connection exactly if the connections
under way begin and end with the same handler. -/
theorem answersOwn_concat (lives : Lives socket (past ++ [observation]))
    (blank : socket.connectHandler = none) (completes : CompletesTaken (past ++ [observation])) :
    AnswersOwn (past ++ [observation]) ↔
      AnswersOwn past ∧
        (observation.completesConnect → (awaiting past).head? = (awaiting past).getLast?) := by
  obtain ⟨before, conduct⟩ := lives.next (List.prefix_refl _)
  have calls := lives.connectCalls_eq blank (List.prefix_refl _)
  have enough : past.countP (·.completesConnect) ≤ (connectors past).length := by
    rw [before.length_connectors]
    exact completes.countP_le (List.prefix_append past _)
  cases completed : observation.completesConnect with
  | false =>
      simp [AnswersOwn, List.filter_append, completed, connectors_concat,
        List.take_append_of_le_length enough]
  | true =>
      have outstanding := completes past observation (List.prefix_refl _) completed
      obtain ⟨own, newest, oldest, last, same_iff⟩ := before.awaiting_ends outstanding
      rw [if_pos completed, last] at calls
      have ran : ((past ++ [observation]).filter (·.completesConnect)).map (·.connectCalls) =
          (past.filter (·.completesConnect)).map (·.connectCalls) ++ [[newest]] := by
        simp [List.filter_append, completed, calls]
      have due : ((connectors (past ++ [observation])).take
            ((past ++ [observation]).countP (·.completesConnect))).map (fun handler => [handler]) =
          ((connectors past).take (past.countP (·.completesConnect))).map
            (fun handler => [handler]) ++ [[own]] := by
        rw [connectors_concat, conduct.connector_of_completesConnect completed, countP_concat,
          completed, Option.toList_none, List.append_nil, Bool.toNat_true, List.take_add_one, oldest]
        simp
      have lengths : ((past.filter (·.completesConnect)).map (·.connectCalls)).length =
          (((connectors past).take (past.countP (·.completesConnect))).map
            fun handler => [handler]).length := by
        simp [← List.countP_eq_length_filter, enough]
      rw [AnswersOwn, ran, due, same_iff]
      constructor
      · intro whole
        obtain ⟨earlier, same⟩ := List.append_inj whole lengths
        exact ⟨earlier, fun _ => by simpa using same.symm⟩
      · rintro ⟨earlier, same⟩
        rw [AnswersOwn] at earlier
        rw [earlier, same rfl]

theorem answersOwn_iff (lives : Lives socket history) (blank : socket.connectHandler = none)
    (completes : CompletesTaken history) :
    AnswersOwn history ↔
      ∀ past observation, past ++ [observation] <+: history → observation.completesConnect →
        (awaiting past).head? = (awaiting past).getLast? := by
  induction history using List.reverseRecOn with
  | nil => simp [AnswersOwn, connectors]
  | append_singleton past observation ih =>
      obtain ⟨before, -⟩ := lives.next (List.prefix_refl _)
      have earlier : past <+: past ++ [observation] := List.prefix_append past _
      rw [lives.answersOwn_concat blank completes,
        ih before fun other next isPrefix => completes other next (isPrefix.trans earlier)]
      constructor
      · rintro ⟨before, last⟩ other next isPrefix
        obtain whole | within := List.prefix_concat_iff.mp isPrefix
        · obtain ⟨rfl, same⟩ := List.append_inj' whole rfl
          cases List.singleton_inj.mp same
          exact last
        · exact before other next within
      · intro all
        exact ⟨fun other next isPrefix => all other next (isPrefix.trans earlier),
          all past observation (List.prefix_refl _)⟩

end Lives

theorem head?_eq_getLast?_iff {α : Type} {items : List α} (distinct : items.Nodup)
    (present : 0 < items.length) : items.head? = items.getLast? ↔ items.length = 1 := by
  cases items with
  | nil => cases present
  | cons first rest =>
      obtain ⟨once, -⟩ := List.nodup_cons.mp distinct
      cases rest using List.reverseRecOn with
      | nil => simp
      | append_singleton middle last =>
          have differ : first ≠ last := by
            rintro rfl
            exact once (by simp)
          rw [← List.cons_append, List.getLast?_concat]
          simp [differ]

/-- Every connection that comes up runs the handler of the connection that was taken last, and
no other operation runs a connect handler. So each runs its own handler exactly if the oldest
and the newest connection under way always have the same; with handlers that are all different
this means that no connection comes up while another one is under way. -/
theorem connections_answered_iff (environment : HostEnvironment κ σ) (fd : SocketFd)
    (connected : Bool) (config : SessionConfig) (operations : List (Operation κ)) (state : σ)
    (completes : CompletesTaken
      (history environment operations (ofFd fd connected config) state)) :
    let history := history environment operations (ofFd fd connected config) state
    (∀ past observation, past ++ [observation] <+: history →
      observation.connectCalls =
        if observation.completesConnect then (connectors past).getLast?.toList else []) ∧
    (AnswersOwn history ↔
      ∀ past observation, past ++ [observation] <+: history → observation.completesConnect →
        (awaiting past).head? = (awaiting past).getLast?) ∧
    ((connectors history).Nodup →
      (AnswersOwn history ↔
        ∀ past observation, past ++ [observation] <+: history → observation.completesConnect →
          outstandingConnects past = 1)) := by
  intro history
  have lives : Lives (ofFd fd connected config) history := history_lives operations _ state
  have own_iff := lives.answersOwn_iff rfl completes
  refine ⟨fun past observation isPrefix => lives.connectCalls_eq rfl isPrefix, own_iff, ?_⟩
  intro distinct
  rw [own_iff]
  refine forall_congr' fun past => forall_congr' fun observation =>
    forall_congr' fun isPrefix => forall_congr' fun completed => ?_
  have before : past <+: history := (List.prefix_append past _).trans isPrefix
  have length := (lives.of_prefix before).length_awaiting
  have among : (awaiting past).Sublist (connectors history) :=
    (List.drop_sublist _ _).trans (before.sublist.filterMap _)
  rw [← length]
  apply head?_eq_getLast?_iff (distinct.sublist among)
  rw [length]
  exact completes past observation isPrefix completed

/-- A connection comes up and ends; of the two that are tried next one is refused. -/
def reconnectingOperations : List (Operation Nat) :=
  [.connect none none 1, .deliverConnect, .deliverRead none, .connect none none 2,
    .connect none none 3, .deliverConnect]

def reconnectingHistory : List (Observation Nat) :=
  history (Emulator.environment Nat) reconnectingOperations (ofFd ⟨1⟩ false {})
    { failures := [⟨"sockConnect", 2, "refused"⟩] }

theorem connections_answered_iff_of_reconnecting :
    CompletesTaken reconnectingHistory ∧ (connectors reconnectingHistory).Nodup ∧
    connectors reconnectingHistory = [1, 2] ∧ AnswersOwn reconnectingHistory ∧
    ∀ past observation, past ++ [observation] <+: reconnectingHistory →
      observation.completesConnect → outstandingConnects past = 1 := by
  have completes : CompletesTaken reconnectingHistory := by decide +kernel
  have taken : connectors reconnectingHistory = [1, 2] := by decide +kernel
  have distinct : (connectors reconnectingHistory).Nodup := by rw [taken]; decide
  obtain ⟨-, -, own_iff⟩ := connections_answered_iff (Emulator.environment Nat) ⟨1⟩ false {}
    reconnectingOperations { failures := [⟨"sockConnect", 2, "refused"⟩] } completes
  have single : ∀ past observation, past ++ [observation] <+: reconnectingHistory →
      observation.completesConnect → outstandingConnects past = 1 :=
    forall_prefix_concat_iff.mpr (by decide +kernel)
  exact ⟨completes, distinct, taken, (own_iff distinct).mpr single, single⟩

/-- Two connections are taken before the first one comes up. -/
def impatientHistory : List (Observation Nat) :=
  history (Emulator.environment Nat)
    [.connect none none 1, .connect none none 2, .deliverConnect, .deliverConnect]
    (ofFd ⟨1⟩ false {}) {}

/-- Both connections run the handler of the second one; that of the first is never run. -/
theorem newer_connector_answers :
    CompletesTaken impatientHistory ∧ connectors impatientHistory = [1, 2] ∧
    impatientHistory.map (·.connectCalls) = [[], [], [2], [2]] ∧
    ¬ AnswersOwn impatientHistory := by
  have calls : impatientHistory.map (·.connectCalls) = [[], [], [2], [2]] := by decide +kernel
  refine ⟨by decide +kernel, by decide +kernel, calls, ?_⟩
  unfold AnswersOwn
  decide +kernel

end EmuScript.Socket
