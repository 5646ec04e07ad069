import EmuScript.Json.Reader
import EmuScript.Json.Writer
import EmuScript.Engine.Realm
import EmuScript.Scenario.Conversation
import EmuScript.Scenario.Engine.Conversation
import EmuScript.Proofs.Engine.Delivery
import EmuScript.Proofs.Engine.Order
import EmuScript.Proofs.Engine.Reentry
import EmuScript.Proofs.Engine.Routing
import EmuScript.Proofs.Engine.WriteCalls
import EmuScript.Proofs.Hook.Numbering
import EmuScript.Proofs.Hook.Retention
import EmuScript.Proofs.Json.Codec
import EmuScript.Proofs.Memory.Binding
import EmuScript.Proofs.Memory.Integers
import EmuScript.Proofs.Memory.Calls
import EmuScript.Proofs.Socket.Writes
import EmuScript.Proofs.Socket.Conduct
import EmuScript.Proofs.Socket.Reads
import EmuScript.Proofs.Engine.Procedures
import EmuScript.Proofs.Engine.Threads
import EmuScript.Proofs.Engine.Reports
import EmuScript.Proofs.Engine.ClientCalls
import EmuScript.Proofs.Socket.Closing
import EmuScript.Proofs.Thread.Lifecycle
import EmuScript.Proofs.Memory.InTurn
import EmuScript.Proofs.Memory.Declaration
import EmuScript.Proofs.Hook.Removal
import EmuScript.Proofs.Socket.Refusal
import EmuScript.Proofs.Socket.Connections
import EmuScript.Proofs.Engine.Creation
import EmuScript.Proofs.Engine.MemoryCalls
import EmuScript.Proofs.Text.Hex
