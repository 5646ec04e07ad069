import EmuScript.Proofs.Engine.Scope

/-!
# Exchanges of the adapter

The adapter carries out a host call by one native call and makes an answer of its reply, or
it refuses the host call and asks for nothing. What an exchange can be is said here once; what
the adapter asks for, counts and retains follows from it.
-/

set_option autoImplicit false

namespace EmuScript.Engine.Adapter

open Numeric Program

variable {φ : Type}

/-! ## The native call of a host call -/

def nativeMemory? : MemoryCall → Option NativeMemoryCall
  | .readInt space address bits signed => some (.readNumber space address bits signed)
  | .writeInt .main address bits value => some (.writeNumber address bits (Double.ofInt64 value))
  | .readFloat space address double => some (.readFloat space address double)
  | .writeFloat space address value double => some (.writeFloat space address value double)
  | .readBlock space address size => (wordSize? size).map (.readBlock space address)
  | .writeBlock .main address data => some (.writeBlock address data)
  | .readString space address => some (.readString space address)
  | .writeString .main address text => some (.writeString address text)
  | .writeInt .rom _ _ _ | .writeBlock .rom _ _ | .writeString .rom _ _ => none

def nativeSocket? (serial : Nat) : SocketCall → Option NativeSocketCall
  | .create => some .create
  | .connect fd host port => some (.connect fd host port ⟨serial, .connect fd⟩)
  | .listen fd port => some (.listen fd port)
  | .accept fd => some (.accept fd ⟨serial, .accept fd⟩)
  | .read fd size => (wordSize? size).map fun size => .read fd size ⟨serial, .read fd⟩
  | .write fd data => some (.write fd data ⟨serial, .write fd⟩)
  | .close fd => some (.close fd)

def nativeThread : ThreadCall (Closure φ) → NativeThreadCall φ
  | .create procedure => .create procedure
  | .suspend handle => .suspend (handleNumber handle)
  | .resume handle => .resume (handleNumber handle)
  | .terminate handle => .terminate (handleNumber handle)
  | .sleep milliseconds => .sleep milliseconds

/-- The native call that carries out a host call, if the native table can express it; a
request takes the ticket with the number. -/
def native? (serial : Nat) : HostCall (Closure φ) → Option (NativeCall φ)
  | .register call => some (.register call)
  | .memory call => (nativeMemory? call).map .memory
  | .hook call => some (.hook call)
  | .console call => some (.console call)
  | .system call => some (.system call)
  | .socket call => (nativeSocket? serial call).map .socket
  | .thread call => some (.thread (nativeThread call))

theorem nativeMemory?_primitive {call : MemoryCall} {native : NativeMemoryCall}
    (carried : nativeMemory? call = some native) : native.primitive = call.primitive := by
  cases call with
  | readInt | readFloat | writeFloat | readString => cases carried; rfl
  | writeInt space | writeBlock space | writeString space =>
      cases space with
      | main => cases carried; rfl
      | rom => cases carried
  | readBlock space address size =>
      obtain ⟨size, -, rfl⟩ := Option.map_eq_some_iff.mp carried
      rfl

section Socket

variable {serial : Nat} {call : SocketCall} {native : NativeSocketCall}

theorem nativeSocket?_primitive (carried : nativeSocket? serial call = some native) :
    native.primitive = call.primitive := by
  cases call with
  | create | connect | listen | accept | write | close => cases carried; rfl
  | read fd size =>
      obtain ⟨size, -, rfl⟩ := Option.map_eq_some_iff.mp carried
      rfl

theorem nativeSocket?_ticket (carried : nativeSocket? serial call = some native) :
    native.ticket? =
      (Request.of? (.socket call : HostCall (Closure φ))).map (Ticket.mk serial) := by
  cases call with
  | create | connect | listen | accept | write | close => cases carried; rfl
  | read fd size =>
      obtain ⟨size, -, rfl⟩ := Option.map_eq_some_iff.mp carried
      rfl

end Socket

section Native

variable {serial : Nat} {call : HostCall (Closure φ)} {native : NativeCall φ}

theorem native?_primitive (carried : native? serial call = some native) :
    native.primitive = call.primitive := by
  cases call with
  | register call | console call | system call | hook call => cases carried; rfl
  | thread call => cases call <;> cases carried <;> rfl
  | memory call =>
      obtain ⟨memory, found, rfl⟩ := Option.map_eq_some_iff.mp carried
      exact nativeMemory?_primitive found
  | socket call =>
      obtain ⟨socket, found, rfl⟩ := Option.map_eq_some_iff.mp carried
      exact nativeSocket?_primitive found

theorem native?_ticket (carried : native? serial call = some native) :
    native.ticket? = (Request.of? call).map (Ticket.mk serial) := by
  cases call with
  | register call | console call | system call | hook call | thread call => cases carried; rfl
  | memory call =>
      obtain ⟨memory, -, rfl⟩ := Option.map_eq_some_iff.mp carried
      rfl
  | socket call =>
      obtain ⟨socket, found, rfl⟩ := Option.map_eq_some_iff.mp carried
      exact nativeSocket?_ticket found

end Native

/-! ## Exchanges -/

def StartsOrEndsThread (call : HostCall (Closure φ)) : Prop :=
  (∃ procedure, call = .thread (.create procedure)) ∨ ∃ handle, call = .thread (.terminate handle)

/-- What the adapter makes of the reply to a native call. Only where a thread starts or ends
may other functions be retained for threads afterwards. -/
structure Exchange (call : HostCall (Closure φ)) (adapter : Adapter φ) (asked : NativeCall φ) where
  result : asked.Reply → call.Reply
  after : asked.Reply → Adapter φ
  failed : ∀ thrown, result (.error thrown) = .error (failure asked.primitive thrown)
  answered : ∀ value, ∃ answer, result (.ok value) = .ok answer
  issued : ∀ reply,
    (after reply).ticketsIssued = adapter.ticketsIssued + asked.ticket?.toList.length
  retained : (∀ reply, (after reply).threads = adapter.threads) ∨ StartsOrEndsThread call

namespace Exchange

variable {call : HostCall (Closure φ)} {adapter : Adapter φ} {asked : NativeCall φ}

def program (exchange : Exchange call adapter asked) :
    NativeProgram φ (call.Reply × Adapter φ) :=
  .ask asked fun reply => .done (exchange.result reply, exchange.after reply)

/-- The answer is converted, and the adapter only counts its tickets. -/
def converted (convert : asked.Answer → call.Answer) : Exchange call adapter asked where
  result reply := (reply.mapError (failure asked.primitive)).map convert
  after _ := { adapter with
    ticketsIssued := adapter.ticketsIssued + asked.ticket?.toList.length }
  failed _ := rfl
  answered value := ⟨convert value, rfl⟩
  issued _ := rfl
  retained := .inl fun _ => rfl

/-- The answer is converted, and the adapter takes note of it. -/
def noted (convert : asked.Answer → call.Answer) (note : asked.Answer → Adapter φ)
    (plain : asked.ticket? = none)
    (issued : ∀ value, (note value).ticketsIssued = adapter.ticketsIssued)
    (retained : (∀ value, (note value).threads = adapter.threads) ∨ StartsOrEndsThread call) :
    Exchange call adapter asked where
  result reply := (reply.mapError (failure asked.primitive)).map convert
  after
    | .ok value => note value
    | .error _ => adapter
  failed _ := rfl
  answered value := ⟨convert value, rfl⟩
  issued reply := by
    rw [plain]
    cases reply with
    | ok value => exact issued value
    | error thrown => rfl
  retained := retained.imp_left fun kept reply => by
    cases reply with
    | ok value => exact kept value
    | error thrown => rfl

end Exchange

theorem direct_eq (native : NativeCall φ) (adapter : Adapter φ) :
    direct native adapter = .ask native fun reply =>
      .done ((reply.mapError (failure native.primitive)).map id, adapter) := by
  refine congrArg (Program.ask _) (funext fun reply => ?_)
  cases reply <;> rfl

theorem serveMemory_carried {call : MemoryCall} {native : NativeMemoryCall} (adapter : Adapter φ)
    (carried : nativeMemory? call = some native) :
    ∃ exchange : Exchange (.memory call) adapter (.memory native),
      serve (.memory call) adapter = exchange.program := by
  cases call with
  | readInt =>
      cases carried
      exact ⟨.converted Binary.toInt64, rfl⟩
  | readFloat | writeFloat | readString =>
      cases carried
      exact ⟨.converted id, direct_eq _ _⟩
  | writeInt space | writeBlock space | writeString space =>
      cases space with
      | main =>
          cases carried
          exact ⟨.converted id, direct_eq _ _⟩
      | rom => cases carried
  | readBlock space address size =>
      obtain ⟨word, fits, rfl⟩ := Option.map_eq_some_iff.mp carried
      refine ⟨.converted id, ?_⟩
      simp only [serve, serveMemory, fits]
      exact direct_eq _ _

theorem serveSocket_carried {call : SocketCall} {native : NativeSocketCall} {adapter : Adapter φ}
    (carried : nativeSocket? adapter.ticketsIssued call = some native) :
    ∃ exchange : Exchange (.socket call) adapter (.socket native),
      serve (.socket call) adapter = exchange.program := by
  cases call with
  | create | listen | close =>
      cases carried
      exact ⟨.converted id, direct_eq _ _⟩
  | connect | accept | write =>
      cases carried
      exact ⟨.converted fun _ => (), rfl⟩
  | read fd size =>
      obtain ⟨word, fits, rfl⟩ := Option.map_eq_some_iff.mp carried
      refine ⟨.converted fun _ => (), ?_⟩
      simp only [serve, serveSocket, fits]
      rfl

theorem serveHook_exchange (call : HookCall (Closure φ)) (adapter : Adapter φ) :
    ∃ exchange : Exchange (.hook call) adapter (.hook call),
      serve (.hook call) adapter = exchange.program := by
  cases call with
  | install kind tag callback =>
      refine ⟨.noted id (fun id => { adapter with hooks := adapter.hooks.insert id callback })
        rfl (fun _ => rfl) (.inl fun _ => rfl), ?_⟩
      refine congrArg (Program.ask _) (funext fun reply => ?_)
      cases reply <;> rfl
  | remove id =>
      refine ⟨.noted (fun _ => ()) (fun _ => { adapter with hooks := adapter.hooks.erase id })
        rfl (fun _ => rfl) (.inl fun _ => rfl), ?_⟩
      refine congrArg (Program.ask _) (funext fun reply => ?_)
      cases reply <;> rfl

theorem serveThread_exchange (call : ThreadCall (Closure φ)) (adapter : Adapter φ) :
    ∃ exchange : Exchange (.thread call) adapter (.thread (nativeThread call)),
      serve (.thread call) adapter = exchange.program := by
  cases call with
  | suspend | resume | sleep => exact ⟨.converted id, direct_eq _ _⟩
  | create procedure =>
      refine ⟨.noted (fun number => ⟨Binary.toUInt64 number⟩)
        (fun number => { adapter with
          threads := adapter.threads.insert ⟨Binary.toUInt64 number⟩ procedure })
        rfl (fun _ => rfl) (.inr (.inl ⟨procedure, rfl⟩)), ?_⟩
      refine congrArg (Program.ask _) (funext fun reply => ?_)
      cases reply <;> rfl
  | terminate handle =>
      refine ⟨.noted (fun _ => ()) (fun _ => { adapter with
          threads := adapter.threads.erase handle })
        rfl (fun _ => rfl) (.inr (.inr ⟨handle, rfl⟩)), ?_⟩
      refine congrArg (Program.ask _) (funext fun reply => ?_)
      cases reply <;> rfl

theorem serve_carried {call : HostCall (Closure φ)} {adapter : Adapter φ} {native : NativeCall φ}
    (carried : native? adapter.ticketsIssued call = some native) :
    ∃ exchange : Exchange call adapter native, serve call adapter = exchange.program := by
  cases call with
  | register call | console call | system call =>
      cases carried
      exact ⟨.converted id, direct_eq _ _⟩
  | hook call =>
      cases carried
      exact serveHook_exchange call adapter
  | thread call =>
      cases carried
      exact serveThread_exchange call adapter
  | memory call =>
      obtain ⟨memory, found, rfl⟩ := Option.map_eq_some_iff.mp carried
      exact serveMemory_carried adapter found
  | socket call =>
      obtain ⟨socket, found, rfl⟩ := Option.map_eq_some_iff.mp carried
      exact serveSocket_carried found

theorem serve_refused {call : HostCall (Closure φ)} {adapter : Adapter φ}
    (refused : native? adapter.ticketsIssued call = none) :
    ∃ error, serve call adapter = .done (.error error, adapter) := by
  cases call with
  | register | console | system | hook | thread => cases refused
  | memory call =>
      have missing : nativeMemory? call = none := Option.map_eq_none_iff.mp refused
      cases call with
      | readInt | readFloat | writeFloat | readString => cases missing
      | writeInt space | writeBlock space | writeString space =>
          cases space with
          | main => cases missing
          | rom => exact ⟨_, rfl⟩
      | readBlock space address size =>
          have large : wordSize? size = none := Option.map_eq_none_iff.mp missing
          simp only [serve, serveMemory, large]
          exact ⟨_, rfl⟩
  | socket call =>
      have missing : nativeSocket? adapter.ticketsIssued call = none :=
        Option.map_eq_none_iff.mp refused
      cases call with
      | create | connect | listen | accept | write | close => cases missing
      | read fd size =>
          have large : wordSize? size = none := Option.map_eq_none_iff.mp missing
          simp only [serve, serveSocket, large]
          exact ⟨_, rfl⟩

end EmuScript.Engine.Adapter
