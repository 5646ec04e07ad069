import EmuScript.Proofs.Engine.Order
import EmuScript.Proofs.Engine.Reception
import EmuScript.Proofs.Engine.Tickets
import Mathlib.Data.List.Count

/-!
# The log of clients

A log of clients keeps the requests that a session has made for clients, by the answers of
the emulator, and for each completion that was applied the function that was then installed
for the clients of its server. Here it is said how it agrees with the requests, the
completions and the queued calls.
-/

set_option autoImplicit false

namespace EmuScript.Engine

variable {φ : Type}

/-- A request for a client. -/
structure ClientRequest where
  ticket : Ticket
  /-- It was made because a client had come. -/
  rearms : Bool
  deriving DecidableEq

structure ClientLog (φ : Type) where
  /-- The function that is given with the method that has just been called. -/
  gives : Option φ := none
  /-- The functions that are installed for the clients of servers. -/
  installed : SocketFd → Option φ := fun _ => none
  /-- The request that the emulator has not answered yet. -/
  asked : Option ClientRequest := none
  taken : List ClientRequest := []
  refused : List ClientRequest := []
  /-- For each completion that was applied, the function that was installed for the clients
  of its server. -/
  heard : List (Option φ) := []

/-- The queued calls of an age: those that one completion has caused. -/
def callsAged (age : Nat) (calls : List (Queued φ)) : List (Invocation φ) :=
  (calls.filter (·.age = age)).map (·.invocation)

theorem callsAged_append (age : Nat) (first second : List (Queued φ)) :
    callsAged age (first ++ second) = callsAged age first ++ callsAged age second := by
  simp [callsAged]

theorem callsAged_singleton (age : Nat) (call : Queued φ) :
    callsAged age [call] = if call.age = age then [call.invocation] else [] := by
  by_cases same : call.age = age <;> simp [callsAged, same]

theorem callsAged_perm (age : Nat) {first second : List (Queued φ)} (same : first.Perm second) :
    (callsAged age first).Perm (callsAged age second) :=
  (same.filter _).map _

theorem eq_clientCalls_of_perm {client : SocketFd} {installed : Option φ}
    {calls : List (Invocation φ)} (same : calls.Perm (clientCalls client installed)) :
    calls = clientCalls client installed := by
  cases installed with
  | none => exact same.eq_nil
  | some callback => exact same.eq_singleton

namespace ClientLog

def answered (log : ClientLog φ) (granted : Bool) : ClientLog φ :=
  if granted then { log with asked := none, taken := log.taken ++ log.asked.toList }
  else { log with asked := none, refused := log.refused ++ log.asked.toList }

/-- A request is made, and the function is installed that was given for it. -/
def ask (log : ClientLog φ) (ticket : Ticket) (server : SocketFd) : ClientLog φ :=
  { log with
    gives := none
    installed := Reception.installing log.installed (some server) log.gives
    asked := some ⟨ticket, log.gives.isNone⟩ }

def hear (log : ClientLog φ) (completion : Completion) : ClientLog φ :=
  { log with gives := none, heard := log.heard ++ [completion.arms.bind log.installed] }

def all (log : ClientLog φ) : List ClientRequest :=
  log.taken ++ log.refused ++ log.asked.toList

/-- The servers for which clients were asked for because one had come. -/
def rearmed (log : ClientLog φ) : List SocketFd :=
  (log.all.filter (·.rearms)).filterMap (·.ticket.accepts?)

theorem answered_all (log : ClientLog φ) (granted : Bool) :
    (log.answered granted).all.Perm log.all := by
  cases granted with
  | false => simp [answered, all]
  | true =>
      simp only [answered, all, if_true, Option.toList_none, List.append_nil, List.append_assoc]
      exact List.perm_append_comm.append_left _

theorem answered_installed (log : ClientLog φ) (granted : Bool) :
    (log.answered granted).installed = log.installed := by
  cases granted <;> rfl

/-- A log agrees with the tickets that were handed out and those whose completions were
applied, with these completions and with the calls that were queued. The calls `due` remain
to be made for the completion that is being applied, and so does a request for a client of
the server `arms`. -/
structure Agrees (log : ClientLog φ) (due : List (Invocation φ)) (arms : Option SocketFd)
    (handed served : List Ticket) (applied : List Completion) (queued : List (Queued φ)) :
    Prop where
  listed : (log.all.map (·.ticket)).Perm (handed.filter (·.accepts?.isSome))
  balanced : (log.rearmed ++ arms.toList).Perm (served.filterMap Ticket.accepts?)
  length : log.heard.length = applied.length
  calls : ∀ (index : Nat) server client, applied[index]? = some (.accepted server client) →
    callsAged (index + 1) queued ++ (if index + 1 = applied.length then due else []) =
      clientCalls client log.heard[index]?.join

namespace Agrees

variable {log : ClientLog φ} {due : List (Invocation φ)} {arms : Option SocketFd}
  {handed served : List Ticket} {applied : List Completion} {queued : List (Queued φ)}

theorem nothing : Agrees ({} : ClientLog φ) [] none [] [] [] [] where
  listed := .nil
  balanced := .nil
  length := rfl
  calls := by simp

theorem giving (agrees : Agrees log due arms handed served applied queued) (gives : Option φ) :
    Agrees { log with gives } due arms handed served applied queued :=
  ⟨agrees.listed, agrees.balanced, agrees.length, agrees.calls⟩

theorem handOther (agrees : Agrees log due arms handed served applied queued) {ticket : Ticket}
    (other : ticket.accepts? = none) :
    Agrees log due arms (handed ++ [ticket]) served applied queued :=
  { agrees with
    listed := by simpa [List.filter_append, other] using agrees.listed }

/-- A request is made by a method, or because a client has come. -/
theorem ask (agrees : Agrees log due arms handed served applied queued) {ticket : Ticket}
    {server : SocketFd} (accepts : ticket.accepts? = some server) (vacant : log.asked = none)
    (kind : arms = if log.gives.isNone then some server else none) :
    Agrees (log.ask ticket server) due none (handed ++ [ticket]) served applied queued where
  listed := by
    have before := agrees.listed
    simp only [all, vacant, Option.toList_none, List.append_nil] at before
    simpa [ClientLog.ask, all, List.filter_append, accepts] using before.append_right [ticket]
  balanced := by
    have before := agrees.balanced
    rw [kind] at before
    simp only [rearmed, all, vacant, Option.toList_none, List.append_nil] at before
    cases given : log.gives with
    | none => simpa [ClientLog.ask, rearmed, all, given, accepts] using before
    | some callback => simpa [ClientLog.ask, rearmed, all, given] using before
  length := agrees.length
  calls := agrees.calls

theorem answer (agrees : Agrees log due arms handed served applied queued) (granted : Bool) :
    Agrees (log.answered granted) due arms handed served applied queued := by
  have same := log.answered_all granted
  have heard : (log.answered granted).heard = log.heard := by cases granted <;> rfl
  refine ⟨(same.map _).trans agrees.listed, ?_, heard ▸ agrees.length, heard ▸ agrees.calls⟩
  exact (((same.filter _).filterMap _).append_right _).trans agrees.balanced

/-- A call is queued: the one that is due, or any if the completion brings no client. -/
theorem queue (agrees : Agrees log due arms handed served applied queued) {call : Queued φ}
    {later : List (Invocation φ)} (newest : call.age = applied.length)
    (allowed : due = call.invocation :: later ∨
      due = later ∧ applied.getLast?.bind Completion.arms = none) :
    Agrees log later arms handed served applied (queued ++ [call]) :=
  { agrees with
    calls := by
      intro index server client caused
      have before := agrees.calls index server client caused
      rw [callsAged_append, callsAged_singleton, newest, List.append_assoc, ← before]
      by_cases last : applied.length = index + 1
      · rw [if_pos last, if_pos last.symm, if_pos last.symm]
        rcases allowed with rfl | ⟨rfl, other⟩
        · rfl
        · rw [List.getLast?_eq_getElem?, last, Nat.add_sub_cancel, caused] at other
          cases other
      · rw [if_neg last, if_neg (Ne.symm last), if_neg (Ne.symm last), List.nil_append] }

/-- A completion is applied; all calls for those before it have been queued. -/
theorem serve (agrees : Agrees log [] none handed served applied queued) {ticket : Ticket}
    {completion : Completion} (yields : ticket.Yields completion)
    (dated : ∀ call ∈ queued, call.age ≤ applied.length) :
    Agrees (log.hear completion) (completion.due log.installed) completion.arms handed
      (served ++ [ticket]) (applied ++ [completion]) queued where
  listed := agrees.listed
  balanced := by
    have accepts : ticket.accepts? = completion.arms := by
      obtain ⟨serial, request⟩ := ticket
      obtain ⟨payload, rfl⟩ := yields
      cases request <;> rfl
    have before := agrees.balanced.append_right completion.arms.toList
    cases arms : completion.arms <;>
      simpa [accepts, arms, rearmed, all, hear] using before
  length := by simp [hear, agrees.length]
  calls := by
    intro index server client caused
    simp only [hear, List.length_append, List.length_singleton, Nat.add_right_cancel_iff]
    -- All calls for earlier completions have been queued, and none for the new one.
    rcases Nat.lt_trichotomy index applied.length with earlier | rfl | later
    · have before := agrees.calls index server client
        (by rwa [List.getElem?_append_left earlier] at caused)
      rw [if_neg (Nat.ne_of_lt earlier), List.getElem?_append_left (agrees.length ▸ earlier)]
      simpa using before
    · have none : callsAged (applied.length + 1) queued = [] := by
        refine List.map_eq_nil_iff.mpr (List.filter_eq_nil_iff.mpr fun call member => ?_)
        have old := dated call member
        simp only [decide_eq_true_eq]
        omega
      have same : completion = .accepted server client := by simpa using caused
      subst same
      rw [none, if_pos rfl, ← agrees.length]
      simp [Completion.due, Completion.arms]
    · rw [List.getElem?_eq_none (by simpa using Nat.succ_le_of_lt later)] at caused
      cases caused

end Agrees

/-! ## Requests under way -/

/-- The requests for clients of a server that methods have made and the emulator has taken. -/
def requested (log : ClientLog φ) (server : SocketFd) : List ClientRequest :=
  log.taken.filter fun request => !request.rearms && request.ticket.accepts? = some server

/-- The requests for clients of a server that were made because one had come, and that the
emulator has refused. -/
def lapsed (log : ClientLog φ) (server : SocketFd) : List ClientRequest :=
  log.refused.filter fun request => request.rearms && request.ticket.accepts? = some server

/-- The requests for clients of a server that the emulator has taken and not completed. -/
def outstanding (log : ClientLog φ) (completed : List Ticket) (server : SocketFd) :
    List ClientRequest :=
  log.taken.filter fun request =>
    request.ticket ∉ completed && request.ticket.accepts? = some server

/-- The emulator has completed no request that it has refused. -/
def Lawful (log : ClientLog φ) (completed : List Ticket) : Prop :=
  ∀ request ∈ log.refused, request.ticket ∉ completed

instance (log : ClientLog φ) (completed : List Ticket) : Decidable (log.Lawful completed) :=
  inferInstanceAs (Decidable (∀ request ∈ log.refused, request.ticket ∉ completed))

theorem count_rearmed (log : ClientLog φ) (server : SocketFd) :
    log.rearmed.count server =
      log.all.countP fun request => request.rearms && request.ticket.accepts? = some server := by
  rw [rearmed, List.count_filterMap, List.countP_filter]
  refine List.countP_congr fun request _ => ?_
  simp [and_comm]

theorem Agrees.count_completed {log : ClientLog φ} {due : List (Invocation φ)}
    {arms : Option SocketFd} {handed served completed : List Ticket} {applied : List Completion}
    {queued : List (Queued φ)} (agrees : Agrees log due arms handed served applied queued)
    (unique : handed.Nodup) (once : completed.Nodup) (within : completed ⊆ handed)
    (server : SocketFd) :
    (completed.filterMap Ticket.accepts?).count server =
      log.all.countP fun request =>
        request.ticket ∈ completed && request.ticket.accepts? = some server := by
  have distinct : (log.all.map (·.ticket)).Nodup :=
    agrees.listed.nodup_iff.mpr (unique.filter _)
  have same : (completed.filter (·.accepts? = some server)).Perm
      ((log.all.map (·.ticket)).filter fun ticket =>
        ticket ∈ completed && ticket.accepts? = some server) := by
    -- No ticket is there twice, so that it is enough to compare the members.
    refine (List.perm_ext_iff_of_nodup (once.filter _) (distinct.filter _)).mpr fun ticket => ?_
    have listed : ticket ∈ completed ∧ ticket.accepts? = some server →
        ticket ∈ log.all.map (·.ticket) := fun ⟨member, accepts⟩ =>
      agrees.listed.mem_iff.mpr (List.mem_filter.mpr ⟨within member, by simp [accepts]⟩)
    simp only [List.mem_filter, Bool.and_eq_true, decide_eq_true_eq]
    exact ⟨fun caused => ⟨listed caused, caused⟩, fun found => found.2⟩
  have counted := same.length_eq
  rw [List.filter_map, List.length_map, ← List.countP_eq_length_filter,
    ← List.countP_eq_length_filter] at counted
  rw [List.count_filterMap]
  refine (List.countP_congr fun ticket _ => ?_).trans counted
  simp

/-- The requests under way and those that were refused when a client had come make up the
requests of methods. -/
theorem Agrees.outstanding_add_lapsed {log : ClientLog φ} {handed completed : List Ticket}
    {applied : List Completion} {queued : List (Queued φ)}
    (agrees : Agrees log [] none handed completed applied queued) (vacant : log.asked = none)
    (unique : handed.Nodup) (once : completed.Nodup) (within : completed ⊆ handed)
    (lawful : log.Lawful completed) (server : SocketFd) :
    (log.outstanding completed server).length + (log.lapsed server).length =
      (log.requested server).length := by
  have count (flag : ClientRequest → Bool) (requests : List ClientRequest) :
      requests.countP (fun request => flag request && request.ticket.accepts? = some server) +
        requests.countP (fun request => !flag request && request.ticket.accepts? = some server) =
      requests.countP fun request => request.ticket.accepts? = some server := by
    have split := requests.countP_eq_countP_filter_add
      (fun request => decide (request.ticket.accepts? = some server)) flag
    rw [List.countP_filter, List.countP_filter] at split
    simpa only [Bool.and_comm] using split.symm
  have balanced := agrees.balanced.count_eq server
  rw [Option.toList_none, List.append_nil, log.count_rearmed,
    agrees.count_completed unique once within, all, vacant, Option.toList_none, List.append_nil,
    List.countP_append, List.countP_append] at balanced
  have refused : (log.refused.countP fun request =>
      request.ticket ∈ completed && request.ticket.accepts? = some server) = 0 := by
    refine List.countP_eq_zero.mpr fun request member => ?_
    simp [lawful request member]
  have byOrigin := count (·.rearms) log.taken
  have byState := count (fun request => request.ticket ∈ completed) log.taken
  simp only [outstanding, lapsed, requested, ← List.countP_eq_length_filter, decide_not]
  omega

end ClientLog

end EmuScript.Engine
