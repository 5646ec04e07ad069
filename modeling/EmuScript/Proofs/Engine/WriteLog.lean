import EmuScript.Proofs.Engine.Backlog
import EmuScript.Proofs.Engine.Tickets
import Mathlib.Data.List.Forall2

/-!
# The log of writes

A log of writes keeps the writes that a session has asked the emulator for, with the
functions that were given with them, by the answers of the emulator. Here it is said how
it agrees with the completions and the queued calls, provided the emulator completes the
writes on each socket in the order in which it was asked for them.
-/

set_option autoImplicit false

namespace EmuScript.Engine

variable {φ : Type}

/-- A write that the emulator was asked for, and the function that was given with it. -/
structure WriteRequest (φ : Type) where
  ticket : Ticket
  callback : Option φ

/-- The call that is to be made for a write, if a function was given with it. -/
def WriteRequest.calls (write : WriteRequest φ) : List (Invocation φ) :=
  write.callback.toList.map (⟨·, []⟩)

structure WriteLog (φ : Type) where
  /-- The write that the emulator has not answered yet. -/
  asked : Option (WriteRequest φ) := none
  /-- The writes that the emulator has taken, oldest first. -/
  accepted : List (WriteRequest φ) := []
  rejected : List (WriteRequest φ) := []

/-- The tickets of writes on a socket. -/
def writesOn (fd : SocketFd) (tickets : List Ticket) : List Ticket :=
  tickets.filter (·.writes? = some fd)

@[simp] theorem writesOn_append (fd : SocketFd) (first second : List Ticket) :
    writesOn fd (first ++ second) = writesOn fd first ++ writesOn fd second :=
  List.filter_append _ _

theorem writesOn_own {fd : SocketFd} {ticket : Ticket} (own : ticket.writes? = some fd) :
    writesOn fd [ticket] = [ticket] := by
  simp [writesOn, own]

theorem writesOn_other {fd : SocketFd} {ticket : Ticket} (other : ticket.writes? ≠ some fd) :
    writesOn fd [ticket] = [] := by
  simp [writesOn, other]

theorem mem_writesOn {fd : SocketFd} {tickets : List Ticket} {ticket : Ticket} :
    ticket ∈ writesOn fd tickets ↔ ticket ∈ tickets ∧ ticket.writes? = some fd := by
  simp [writesOn]

/-- The request whose completion has caused a queued call, given those that completed. -/
def Queued.trigger (completed : List Ticket) (call : Queued φ) : Option Ticket :=
  (completed.take call.age).getLast?

/-- The calls that the completion of a request has caused. -/
def callsOf (completed : List Ticket) (calls : List (Queued φ)) (ticket : Ticket) :
    List (Invocation φ) :=
  (calls.filter fun call => call.trigger completed = some ticket).map (·.invocation)

theorem callsOf_append (completed : List Ticket) (first second : List (Queued φ))
    (ticket : Ticket) :
    callsOf completed (first ++ second) ticket =
      callsOf completed first ticket ++ callsOf completed second ticket := by
  simp [callsOf]

theorem callsOf_singleton (completed : List Ticket) (call : Queued φ) (ticket : Ticket) :
    callsOf completed [call] ticket =
      if call.trigger completed = some ticket then [call.invocation] else [] := by
  by_cases caused : call.trigger completed = some ticket <;> simp [callsOf, caused]

theorem callsOf_perm (completed : List Ticket) {first second : List (Queued φ)}
    (same : first.Perm second) (ticket : Ticket) :
    (callsOf completed first ticket).Perm (callsOf completed second ticket) :=
  (same.filter _).map _

/-- There is no other order of one call. -/
theorem WriteRequest.eq_calls_of_perm (write : WriteRequest φ) {calls : List (Invocation φ)}
    (same : calls.Perm write.calls) : calls = write.calls := by
  obtain ⟨ticket, callback⟩ := write
  cases callback with
  | none => exact same.eq_nil
  | some callback => exact same.eq_singleton

section Triggers

variable {completed served : List Ticket} {call : Queued φ}

theorem trigger_of_earlier (before : served <+: completed) (dated : call.age ≤ served.length) :
    call.trigger completed = call.trigger served := by
  obtain ⟨later, rfl⟩ := before
  rw [Queued.trigger, List.take_append_of_le_length dated, Queued.trigger]

theorem mem_of_trigger {ticket : Ticket} (caused : call.trigger served = some ticket) :
    ticket ∈ served :=
  List.mem_of_mem_take (List.mem_of_getLast? caused)

/-- A call that is queued now is caused by the request whose completion was applied last. -/
theorem trigger_newest (before : served <+: completed) (newest : call.age = served.length) :
    call.trigger completed = served.getLast? := by
  rw [trigger_of_earlier before (Nat.le_of_eq newest), Queued.trigger, newest, List.take_length]

end Triggers

namespace WriteLog

/-- The emulator answers the write that it was asked for. -/
def answered (log : WriteLog φ) (taken : Bool) : WriteLog φ :=
  if taken then ⟨none, log.accepted ++ log.asked.toList, log.rejected⟩
  else ⟨none, log.accepted, log.rejected ++ log.asked.toList⟩

def all (log : WriteLog φ) : List (WriteRequest φ) :=
  log.accepted ++ log.rejected ++ log.asked.toList

/-- The emulator has completed writes on each socket in the order in which it was asked
for them, always the oldest one under way, and none that it has rejected. -/
def InOrder (log : WriteLog φ) (completed : List Ticket) : Prop :=
  ∀ fd, writesOn fd completed <+:
    writesOn fd ((log.accepted ++ log.asked.toList).map (·.ticket))

instance (log : WriteLog φ) (completed : List Ticket) : Decidable (log.InOrder completed) :=
  decidable_of_iff (∀ fd ∈ completed.filterMap Ticket.writes?, writesOn fd completed <+:
      writesOn fd ((log.accepted ++ log.asked.toList).map (·.ticket))) <| by
    refine ⟨fun ordered fd => ?_, fun inOrder fd _ => inOrder fd⟩
    by_cases written : fd ∈ completed.filterMap Ticket.writes?
    · exact ordered fd written
    · have none : writesOn fd completed = [] :=
        List.filter_eq_nil_iff.mpr fun ticket member writes =>
          written (List.mem_filterMap.mpr ⟨ticket, member, by simpa using writes⟩)
      rw [none]
      exact List.nil_prefix

theorem InOrder.earlier {log : WriteLog φ} {earlier completed : List Ticket}
    (inOrder : log.InOrder completed) (before : earlier <+: completed) : log.InOrder earlier :=
  fun fd => (before.filter _).trans (inOrder fd)

def acceptedOn (log : WriteLog φ) (fd : SocketFd) : List (WriteRequest φ) :=
  log.accepted.filter (·.ticket.writes? = some fd)

theorem map_acceptedOn (log : WriteLog φ) (fd : SocketFd) :
    (log.acceptedOn fd).map (·.ticket) = writesOn fd (log.accepted.map (·.ticket)) := by
  simp [acceptedOn, writesOn, List.filter_map, Function.comp_def]

/-- The functions that were given with the writes on a socket whose completions were not
applied. -/
def backlog (log : WriteLog φ) (served : List Ticket) (fd : SocketFd) : List (Option φ) :=
  ((log.acceptedOn fd).drop (writesOn fd served).length).map (·.callback)

theorem backlog_of_accepted {log other : WriteLog φ} (same : other.accepted = log.accepted) :
    other.backlog = log.backlog := by
  funext served fd
  simp only [backlog, acceptedOn, same]

theorem backlog_serve (log : WriteLog φ) (served : List Ticket) (ticket : Ticket) :
    log.backlog (served ++ [ticket]) =
      match ticket.writes? with
      | some fd => Function.update (log.backlog served) fd (log.backlog served fd).tail
      | none => log.backlog served := by
  funext fd
  by_cases writes : ticket.writes? = some fd
  · simp [backlog, writes, writesOn_own writes, List.map_drop]
  · rw [backlog, writesOn_append, writesOn_other writes, List.append_nil]
    cases other : ticket.writes? with
    | none => rfl
    | some socket =>
        have differ : fd ≠ socket := fun same => writes (other.trans (congrArg some same.symm))
        simp [backlog, differ]

/-- The functions that are to be called for the request whose completion is applied. -/
def due (log : WriteLog φ) (served : List Ticket) (ticket : Ticket) : List φ :=
  match ticket.writes? with
  | some fd => (log.backlog served fd).head?.join.toList
  | none => []

/-- A log agrees with the tickets that were handed out, those whose completions were sent
and those whose completions were applied, with the calls that were queued and the
functions that are due to be called. -/
structure Agrees (log : WriteLog φ) (given : φ → Prop) (due : List φ)
    (handed completed served : List Ticket) (queued : List (Queued φ)) : Prop where
  listed : (log.all.map (·.ticket)).Perm (handed.filter (·.writes?.isSome))
  inOrder : log.InOrder completed
  progress : served <+: completed
  covered : ∀ fd, writesOn fd served <+: writesOn fd (log.accepted.map (·.ticket))
  dated : ∀ call ∈ queued, call.age ≤ served.length
  calls : ∀ write ∈ log.accepted, callsOf completed queued write.ticket ++
      (if served.getLast? = some write.ticket then due.map (⟨·, []⟩) else []) =
    if write.ticket ∈ served then write.calls else []
  owed : due ≠ [] → ∃ write ∈ log.accepted, served.getLast? = some write.ticket
  origin : ∀ call ∈ queued,
    (∃ write ∈ log.accepted, call.trigger completed = some write.ticket ∧
      write.callback = some call.invocation.callback) ∨
    given call.invocation.callback ∧
      ∀ ticket, call.trigger completed = some ticket → ticket.writes? = none

theorem mem_all_of_accepted {log : WriteLog φ} {write : WriteRequest φ}
    (accepted : write ∈ log.accepted) : write ∈ log.all :=
  List.mem_append_left _ (List.mem_append_left _ accepted)

namespace Agrees

variable {log : WriteLog φ} {given : φ → Prop} {due : List φ}
  {handed completed served : List Ticket} {queued : List (Queued φ)}

theorem distinct (agrees : Agrees log given due handed completed served queued)
    (unique : handed.Nodup) : (log.all.map (·.ticket)).Nodup :=
  agrees.listed.nodup_iff.mpr (unique.filter _)

theorem writes (agrees : Agrees log given due handed completed served queued)
    {write : WriteRequest φ} (member : write ∈ log.all) :
    write.ticket ∈ handed ∧ ∃ fd, write.ticket.writes? = some fd := by
  have listed := agrees.listed.mem_iff.mp (List.mem_map_of_mem member)
  obtain ⟨handed, writes⟩ := List.mem_filter.mp listed
  exact ⟨handed, Option.isSome_iff_exists.mp writes⟩

theorem nothing : Agrees ({} : WriteLog φ) given [] [] [] [] [] where
  listed := .nil
  inOrder _ := List.nil_prefix
  progress := List.nil_prefix
  covered _ := List.nil_prefix
  dated := by simp
  calls := by simp
  owed := by simp
  origin := by simp

/-- All functions that are due have been called. -/
theorem calls_settled (agrees : Agrees log given [] handed completed served queued)
    {write : WriteRequest φ} (accepted : write ∈ log.accepted) :
    callsOf completed queued write.ticket =
      if write.ticket ∈ served then write.calls else [] := by
  simpa using agrees.calls write accepted

/-! ## Requests -/

theorem handOther (agrees : Agrees log given due handed completed served queued)
    {ticket : Ticket} (other : ticket.writes? = none) :
    Agrees log given due (handed ++ [ticket]) completed served queued :=
  { agrees with
    listed := by simpa [List.filter_append, other] using agrees.listed }

theorem ask (agrees : Agrees log given due handed completed served queued)
    {ticket : Ticket} (callback : Option φ) (vacant : log.asked = none)
    (writes : ticket.writes?.isSome) :
    Agrees { log with asked := some ⟨ticket, callback⟩ } given due (handed ++ [ticket]) completed
      served queued :=
  { agrees with
    listed := by
      have before := agrees.listed
      simp only [all, vacant, Option.toList_none, List.append_nil] at before
      simpa [all, List.filter_append, writes] using before.append_right [ticket]
    inOrder := by
      intro fd
      have before := agrees.inOrder fd
      simp only [vacant, Option.toList_none, List.append_nil] at before
      exact before.trans ⟨writesOn fd [ticket], by simp⟩ }

/-- The emulator has not completed the write that it is asked for and taken other
completions into account. -/
theorem asked_unserved (agrees : Agrees log given due handed completed served queued)
    (unique : handed.Nodup) {write : WriteRequest φ} (asked : log.asked = some write) :
    write.ticket ∉ served := by
  intro member
  have listed : write ∈ log.all := by simp [all, asked]
  obtain ⟨-, fd, writes⟩ := agrees.writes listed
  have covered := (agrees.covered fd).subset (mem_writesOn.mpr ⟨member, writes⟩)
  have accepted := (mem_writesOn.mp covered).1
  have distinct := agrees.distinct unique
  simp only [all, asked, Option.toList_some, List.map_append, List.map_cons, List.map_nil] at distinct
  have apart := (List.nodup_append.mp distinct).2.2
  exact apart _ (List.mem_append_left _ accepted) _ (List.mem_singleton_self _) rfl

theorem callsOf_unserved (agrees : Agrees log given due handed completed served queued)
    {ticket : Ticket} (unserved : ticket ∉ served) : callsOf completed queued ticket = [] := by
  refine List.map_eq_nil_iff.mpr (List.filter_eq_nil_iff.mpr fun call member => ?_)
  rw [trigger_of_earlier agrees.progress (agrees.dated call member)]
  simpa using fun caused => unserved (mem_of_trigger caused)

theorem answer (agrees : Agrees log given [] handed completed served queued)
    (unique : handed.Nodup) (taken : Bool) (inOrder : (log.answered taken).InOrder completed) :
    Agrees (log.answered taken) given [] handed completed served queued := by
  cases taken with
  | false =>
      exact
        { agrees with
          listed := by simpa [answered, all, List.append_assoc] using agrees.listed
          inOrder }
  | true =>
      have grown : log.accepted <+: (log.answered true).accepted := ⟨log.asked.toList, rfl⟩
      exact
        { agrees with
          listed := by
            have moved : (log.answered true).all.Perm log.all := by
              simp only [answered, all, if_true, Option.toList_none, List.append_nil,
                List.append_assoc]
              exact List.perm_append_comm.append_left _
            exact (moved.map _).trans agrees.listed
          inOrder
          covered := fun fd => (agrees.covered fd).trans ((grown.map _).filter _)
          calls := by
            intro write member
            rcases List.mem_append.mp member with before | new
            · exact agrees.calls write before
            · have asked : log.asked = some write := Option.mem_toList.mp new
              have unserved := agrees.asked_unserved unique asked
              rw [agrees.callsOf_unserved unserved, if_neg unserved]
              simp
          owed := fun nothing => (nothing rfl).elim
          origin := by
            intro call member
            refine (agrees.origin call member).imp_left ?_
            rintro ⟨write, accepted, caused⟩
            exact ⟨write, grown.subset accepted, caused⟩ }

/-- A write that the emulator takes is the youngest one under way on its socket. -/
theorem backlog_taken (agrees : Agrees log given due handed completed served queued)
    {write : WriteRequest φ} (asked : log.asked = some write) {fd : SocketFd}
    (writes : write.ticket.writes? = some fd) :
    (log.answered true).backlog served =
      Function.update (log.backlog served) fd (log.backlog served fd ++ [write.callback]) := by
  funext other
  have grown : (log.answered true).acceptedOn other =
      log.acceptedOn other ++ if other = fd then [write] else [] := by
    by_cases same : other = fd
    · simp [answered, acceptedOn, asked, writes, same]
    · simp [answered, acceptedOn, asked, writes, same, Ne.symm same]
  by_cases same : other = fd
  · subst same
    have covered : (writesOn other served).length ≤ (log.acceptedOn other).length := by
      have within := (agrees.covered other).length_le
      rwa [← map_acceptedOn, List.length_map] at within
    simp [backlog, grown, List.drop_append_of_le_length covered]
  · simp [backlog, grown, same]

/-! ## Completions -/

theorem send (agrees : Agrees log given due handed completed served queued) (ticket : Ticket)
    (inOrder : log.InOrder (completed ++ [ticket])) :
    Agrees log given due handed (completed ++ [ticket]) served queued := by
  have before : served <+: completed ++ [ticket] :=
    agrees.progress.trans (List.prefix_append _ _)
  have same {call : Queued φ} (member : call ∈ queued) :
      call.trigger (completed ++ [ticket]) = call.trigger completed := by
    have dated := agrees.dated call member
    rw [trigger_of_earlier before dated, trigger_of_earlier agrees.progress dated]
  have calls (other : Ticket) :
      callsOf (completed ++ [ticket]) queued other = callsOf completed queued other := by
    refine congrArg _ (List.filter_congr fun call member => ?_)
    rw [same member]
  exact
    { agrees with
      inOrder
      progress := before
      calls := fun write member => by rw [calls]; exact agrees.calls write member
      origin := fun call member => by rw [same member]; exact agrees.origin call member }

/-- The write whose completion is applied next is the oldest one under way on its socket. -/
theorem oldest (agrees : Agrees log given due handed completed served queued)
    (vacant : log.asked = none) {ticket : Ticket} (next : served ++ [ticket] <+: completed)
    {fd : SocketFd} (writes : ticket.writes? = some fd) :
    ∃ write rest, (log.acceptedOn fd).drop (writesOn fd served).length = write :: rest ∧
      write.ticket = ticket := by
  have inOrder := agrees.inOrder fd
  rw [vacant, Option.toList_none, List.append_nil, ← map_acceptedOn] at inOrder
  have taken : writesOn fd served ++ [ticket] <+: (log.acceptedOn fd).map (·.ticket) := by
    rw [← writesOn_own writes, ← writesOn_append]
    exact (next.filter _).trans inOrder
  obtain ⟨later, whole⟩ := taken
  rw [List.append_assoc, List.singleton_append] at whole
  have dropped : ((log.acceptedOn fd).drop (writesOn fd served).length).map (·.ticket) =
      ticket :: later := by
    rw [List.map_drop, ← whole, List.drop_left]
  obtain ⟨write, rest, split, same, -⟩ := List.map_eq_cons_iff.mp dropped
  exact ⟨write, rest, split, same⟩

theorem backlog_ne_nil (agrees : Agrees log given due handed completed served queued)
    (vacant : log.asked = none) {ticket : Ticket} (next : served ++ [ticket] <+: completed)
    {fd : SocketFd} (writes : ticket.writes? = some fd) : log.backlog served fd ≠ [] := by
  obtain ⟨write, rest, split, -⟩ := agrees.oldest vacant next writes
  simp [backlog, split]

theorem mem_of_oldest {fd : SocketFd} {write : WriteRequest φ} {rest : List (WriteRequest φ)}
    {count : Nat} (split : (log.acceptedOn fd).drop count = write :: rest) :
    write ∈ log.accepted := by
  have member : write ∈ (log.acceptedOn fd).drop count := by simp [split]
  exact (List.mem_filter.mp (List.mem_of_mem_drop member)).1

theorem serve (agrees : Agrees log given [] handed completed served queued)
    (unique : handed.Nodup) (once : completed.Nodup) (vacant : log.asked = none)
    {ticket : Ticket} (next : served ++ [ticket] <+: completed) :
    Agrees log given (log.due served ticket) handed completed (served ++ [ticket]) queued := by
  have unserved : ticket ∉ served := by
    have distinct : (served ++ [ticket]).Nodup := once.sublist next.sublist
    exact fun member => (List.nodup_append.mp distinct).2.2 _ member _ (by simp) rfl
  have distinct := agrees.distinct unique
  simp only [all, vacant, Option.toList_none, List.append_nil, List.map_append] at distinct
  exact
    { agrees with
      progress := next
      covered := by
        intro fd
        have inOrder := agrees.inOrder fd
        rw [vacant, Option.toList_none, List.append_nil] at inOrder
        exact (next.filter _).trans inOrder
      dated := fun call member => by
        have dated := agrees.dated call member
        rw [List.length_append]
        omega
      calls := by
        intro write member
        rw [agrees.calls_settled member, List.getLast?_concat]
        by_cases own : ticket = write.ticket
        · -- The function that is due is the one given with this write.
          subst own
          obtain ⟨-, fd, writes⟩ := agrees.writes (mem_all_of_accepted member)
          obtain ⟨first, rest, split, same⟩ := agrees.oldest vacant next writes
          have equal : first = write :=
            List.inj_on_of_nodup_map (List.nodup_append.mp distinct).1 (mem_of_oldest split) member
              same
          simp [unserved, due, writes, backlog, split, equal, WriteRequest.calls]
        · have other : write.ticket ≠ ticket := fun same => own same.symm
          simp [own, other]
      owed := by
        intro owes
        cases writes : ticket.writes? with
        | none => simp [due, writes] at owes
        | some fd =>
            obtain ⟨first, rest, split, same⟩ := agrees.oldest vacant next writes
            exact ⟨first, mem_of_oldest split, by simp [same]⟩ }

/-! ## Queued calls -/

theorem callWritten {callback : φ} {later : List φ} {call : Queued φ}
    (agrees : Agrees log given (callback :: later) handed completed served queued)
    (newest : call.age = served.length) (own : call.invocation = ⟨callback, []⟩) :
    Agrees log given later handed completed served (queued ++ [call]) := by
  have caused := trigger_newest agrees.progress newest
  obtain ⟨cause, accepted, last⟩ := agrees.owed (by simp)
  exact
    { agrees with
      dated := List.forall_mem_append.mpr ⟨agrees.dated, by simp [newest]⟩
      calls := by
        intro write member
        have before := agrees.calls write member
        rw [callsOf_append, callsOf_singleton, caused, ← before]
        by_cases last : served.getLast? = some write.ticket <;> simp [last, own]
      owed := fun _ => ⟨cause, accepted, last⟩
      origin := by
        refine List.forall_mem_append.mpr ⟨agrees.origin, ?_⟩
        intro other same
        cases List.mem_singleton.mp same
        refine .inl ⟨cause, accepted, caused.trans last, ?_⟩
        have whole := agrees.calls cause accepted
        rw [if_pos last, if_pos (List.mem_of_getLast? last)] at whole
        -- The function is one of those that were given with this write.
        have member : (⟨callback, []⟩ : Invocation φ) ∈ cause.calls := by
          rw [← whole]
          simp
        simpa [WriteRequest.calls, own] using member }

theorem callGiven {call : Queued φ}
    (agrees : Agrees log given due handed completed served queued)
    (newest : call.age = served.length) (known : given call.invocation.callback)
    (streams : ∀ ticket, served.getLast? = some ticket → ticket.writes? = none) :
    Agrees log given due handed completed served (queued ++ [call]) := by
  have caused := trigger_newest agrees.progress newest
  exact
    { agrees with
      dated := List.forall_mem_append.mpr ⟨agrees.dated, by simp [newest]⟩
      calls := by
        intro write member
        obtain ⟨-, fd, writes⟩ := agrees.writes (mem_all_of_accepted member)
        have other : served.getLast? ≠ some write.ticket := by
          intro last
          simp [streams _ last] at writes
        rw [callsOf_append, callsOf_singleton, caused, if_neg other, List.append_nil]
        exact agrees.calls write member
      origin := by
        refine List.forall_mem_append.mpr ⟨agrees.origin, ?_⟩
        intro other same
        cases List.mem_singleton.mp same
        exact .inr ⟨known, caused ▸ streams⟩ }

end Agrees

end WriteLog

end EmuScript.Engine
