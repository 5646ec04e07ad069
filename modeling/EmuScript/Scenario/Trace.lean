import EmuScript.Host.Action
import EmuScript.Scenario.Writer

/-!
# Traces

What happens in a step of a scenario is written down in order: each call that
the emulator receives, each handler that runs, and each log record.
-/

set_option autoImplicit false

namespace EmuScript.Scenario

def entry (name : String) (arguments : List Json) : Json :=
  .array (.string name :: arguments)

def registerArguments : RegisterCall → List Json
  | .gpr index => [ofWord index]
  | .setGpr index value => [ofWord index, ofWord value]
  | .fpr index => [ofWord index]
  | .setFpr index value => [ofWord index, ofBinary value]
  | .pc => []
  | .setPc value => [ofWord value]

def memoryArguments : MemoryCall → List Json
  | .readInt _ address bits signed => [ofWord address, ofWord bits, .bool signed]
  | .writeInt _ address bits value => [ofWord address, ofWord bits, .integer value.toInt]
  | .readFloat _ address double => [ofWord address, .bool double]
  | .writeFloat _ address value double => [ofWord address, ofBinary value, .bool double]
  | .readBlock _ address size => [ofWord address, ofNat size.toNat]
  | .writeBlock _ address data => [ofWord address, ofBytes data]
  | .readString _ address => [ofWord address]
  | .writeString _ address text => [ofWord address, .string text]

def hookArguments {κ : Type} : HookCall κ → List Json
  | .install kind tag _ => [.string kind.name, ofWord tag]
  | .remove id => [ofWord id.value]

def consoleArguments : ConsoleCall → List Json
  | .print text => [.string text]
  | .clear => []
  | .messageBox text caption => [.string text, .string caption]

def systemArguments : SystemCall → List Json
  | .setSaveSlot slot => [ofWord slot]
  | .showMemory address | .showCommands address => [ofWord address]
  | _ => []

def socketArguments : SocketCall → List Json
  | .create => []
  | .connect fd host port => [ofWord fd.value, .string host, ofNat port.toNat]
  | .listen fd port => [ofWord fd.value, ofNat port.toNat]
  | .accept fd => [ofWord fd.value]
  | .read fd size => [ofWord fd.value, ofNat size.toNat]
  | .write fd data => [ofWord fd.value, ofBytes data]
  | .close fd => [ofWord fd.value]

def threadArguments {κ : Type} : ThreadCall κ → List Json
  | .create _ => []
  | .suspend handle | .resume handle | .terminate handle => [ofNat handle.value.toNat]
  | .sleep milliseconds => [ofWord milliseconds]

def callArguments {κ : Type} : HostCall κ → List Json
  | .register call => registerArguments call
  | .memory call => memoryArguments call
  | .hook call => hookArguments call
  | .console call => consoleArguments call
  | .system call => systemArguments call
  | .socket call => socketArguments call
  | .thread call => threadArguments call

def ofCall {κ : Type} (call : HostCall κ) : Json :=
  entry call.primitive (callArguments call)

def levelName : LogLevel → String
  | .error => "error"
  | .warn => "warn"
  | .debug => "debug"

def ofRecord (record : LogRecord) : Json :=
  entry "log" [.string (levelName record.level), .string record.text]

def ofSocket {κ : Type} (socket : Socket κ) : Json :=
  .object [("fd", ofWord socket.fd.value), ("connected", .bool socket.connected),
    ("buffer_size", ofNat socket.bufferSize.toNat), ("pending", ofNat socket.pendingWrites.length)]

def ofSignal : Signal String → Json
  | .hook label address => entry "@hook" [.string label, ofWord address]
  | .connected label => entry "@connect" [.string label]
  | .received label data => entry "@data" [.string label, ofBytes data]
  | .closed label => entry "@close" [.string label]
  | .written label => entry "@written" [.string label]
  | .accepted label client => entry "@connection" [.string label, ofSocket client]

end EmuScript.Scenario
