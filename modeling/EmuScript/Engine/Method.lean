import EmuScript.Engine.Bridge
import EmuScript.Memory.Binding
import EmuScript.System

/-!
# Methods

The calls by which a script works on its session. Services need the emulator
only; the other methods also work on the hooks, sockets, servers and threads of
the bridge. Numbers of the engine are doubles: in memory of an integer type
their integer part is written.
-/

set_option autoImplicit false

namespace EmuScript.Engine

open Numeric

inductive Answer where
  | nothing
  | word (value : UInt32)
  | single (value : Single)
  | double (value : Double)
  | bytes (data : Bytes)
  | text (value : String)
  | handle (value : HookHandle)
  deriving DecidableEq

/-- The kinds of objects that scripts know by number. -/
inductive DescriptorKind where
  | socket | server | thread
  deriving DecidableEq

def DescriptorKind.name : DescriptorKind → String
  | socket => "socket"
  | server => "server"
  | thread => "thread"

inductive Failure where
  | script (error : ScriptError)
  /-- Another call is working on the bridge. -/
  | busy
  | unknownDescriptor (kind : DescriptorKind) (value : UInt32)
  deriving DecidableEq

def Failure.message : Failure → String
  | script error => error.message
  | busy => "script session is busy"
  | unknownDescriptor kind value => s!"no {kind.name} with descriptor {value.toNat}"

/-- The value that a number stands for in memory of a type. -/
def valueFor (type : PrimitiveType) (number : Double) : Value :=
  if type.isFloat then .float number else .int (Binary.toInt64 number)

inductive Service where
  | readGeneral (index : UInt32)
  | writeGeneral (index value : UInt32)
  | readGeneralNamed (name : String)
  | writeGeneralNamed (name : String) (value : UInt32)
  | readFloat (index : UInt32)
  | writeFloat (index : UInt32) (value : Single)
  | readFloatNamed (name : String)
  | writeFloatNamed (name : String) (value : Single)
  | readMemory (type : PrimitiveType) (address : UInt32)
  | writeMemory (type : PrimitiveType) (address : UInt32) (number : Double)
  | getBlock (address : UInt32) (size : UInt64)
  | setBlock (address : UInt32) (data : Bytes)
  | getString (address : UInt32)
  | setString (address : UInt32) (text : String)
  | readRom (type : PrimitiveType) (address : UInt32)
  | writeRom (address : UInt32) (value : Double) (double : Bool)
  | getRomBlock (address : UInt32) (size : UInt64)
  | getRomString (address : UInt32)
  | readBound (object : BoundObject) (name : String)
  | writeBound (object : BoundObject) (name : String) (value : Value)
  | print (text : String)
  | printLine (text : String)
  | clearConsole
  | alert (text : String) (caption : Option String)
  | pause
  | resume
  | reset
  | hardReset
  | saveState
  | loadState
  | saveSlot
  | setSaveSlot (slot : UInt32)
  | generateBitmap
  | showMemory (address : UInt32)
  | showCommands (address : UInt32)
  | breakHere
  | sleep (milliseconds : UInt32)

def Service.action {κ : Type} : Service → Action κ Answer
  | readGeneral index => .word <$> Register.readGeneral index
  | writeGeneral index value => (fun _ => .nothing) <$> Register.writeGeneral index value
  | readGeneralNamed name => .word <$> Register.readGeneralNamed name
  | writeGeneralNamed name value =>
      (fun _ => .nothing) <$> Register.writeGeneralNamed name value
  | readFloat index => .single <$> Register.readFloat index
  | writeFloat index value => (fun _ => .nothing) <$> Register.writeFloat index value
  | readFloatNamed name => .single <$> Register.readFloatNamed name
  | writeFloatNamed name value => (fun _ => .nothing) <$> Register.writeFloatNamed name value
  | readMemory type address => (.double ·.toDouble) <$> Memory.read type address
  | writeMemory type address number =>
      (fun _ => .nothing) <$> Memory.write type address (valueFor type number)
  | getBlock address size => .bytes <$> Memory.getBlock address size
  | setBlock address data => (fun _ => .nothing) <$> Memory.setBlock address data
  | getString address => .text <$> Memory.getString address
  | setString address text => (fun _ => .nothing) <$> Memory.setString address text
  | readRom type address => (.double ·.toDouble) <$> Rom.read type address
  | writeRom address value true => (fun _ => .nothing) <$> Rom.set .double rfl address value
  | writeRom address value false =>
      (fun _ => .nothing) <$> Rom.set .float rfl address value.toSingle
  | getRomBlock address size => .bytes <$> Rom.getBlock address size
  | getRomString address => .text <$> Rom.getString address
  | readBound object name => (.double ·.toDouble) <$> object.get name
  | writeBound object name value => (fun _ => .nothing) <$> object.set name value
  | print text => (fun _ => .nothing) <$> Console.print text
  | printLine text => (fun _ => .nothing) <$> Console.log [text]
  | clearConsole => (fun _ => .nothing) <$> Console.clear
  | alert text caption => (fun _ => .nothing) <$> Console.alert text caption
  | pause => (fun _ => .nothing) <$> System.pause
  | resume => (fun _ => .nothing) <$> System.resume
  | reset => (fun _ => .nothing) <$> System.reset
  | hardReset => (fun _ => .nothing) <$> System.hardReset
  | saveState => (fun _ => .nothing) <$> System.saveState
  | loadState => (fun _ => .nothing) <$> System.loadState
  | saveSlot => .word <$> System.saveSlot
  | setSaveSlot slot => (fun _ => .nothing) <$> System.setSaveSlot slot
  | generateBitmap => (fun _ => .nothing) <$> System.generateBitmap
  | showMemory address => (fun _ => .nothing) <$> Debugger.showMemory address
  | showCommands address => (fun _ => .nothing) <$> Debugger.showCommands address
  | breakHere => (fun _ => .nothing) <$> Debugger.breakHere
  | sleep milliseconds => (fun _ => .nothing) <$> Thread.sleep milliseconds

/-- Calls of a script with functions `φ`. -/
inductive Method (φ : Type) where
  | service (request : Service)
  | on (kind : HookKind) (tag : UInt32) (callback : φ)
  | off (id : CallbackId)
  | clearHooks
  | createSocket
  | connect (fd : UInt32) (host : Option String) (port : Option UInt16) (callback : Option φ)
  | onData (fd : UInt32) (callback : φ)
  | onClose (fd : UInt32) (callback : φ)
  | write (fd : UInt32) (data : Bytes) (callback : Option φ)
  | close (fd : UInt32)
  | createServer (port : Option UInt16)
  | listen (fd : UInt32) (port : UInt16)
  | onConnection (fd : UInt32) (callback : φ)
  | spawn (callback : φ)
  | threadState (key : UInt32)
  | suspendThread (key : UInt32)
  | resumeThread (key : UInt32)
  | stopThread (key : UInt32)

namespace Method

variable {φ α : Type}

/-- A write of a number to a property. The property is looked up before the
session is asked for. -/
def writeBound (object : BoundObject) (name : String) (number : Double) :
    Except ScriptError (Method φ) :=
  match object.binding? name with
  | none => .error (.unknownField name)
  | some binding =>
      .ok (.service (.writeBound object name (valueFor binding.type number)))

/-- The result of a method whose error is one of the script. -/
def scriptResult (answer : α → Answer) (result : Except ScriptError α) : Except Failure Answer :=
  match result with
  | .ok value => .ok (answer value)
  | .error error => .error (.script error)

/-- The result of a method on an object that may not exist. -/
def objectResult (kind : DescriptorKind) (number : UInt32) (result : Option (Except ScriptError α)) :
    Except Failure Answer :=
  match result with
  | none => .error (.unknownDescriptor kind number)
  | some result => scriptResult (fun _ => .nothing) result

/-- Starts a thread whose procedure is kept under a new key. The key is used up
also when the emulator refuses; the procedure is then dropped. -/
def runSpawn (callback : φ) : Bridge.Step φ (Except Failure Answer) := fun bridge => do
  let key := bridge.nextThread
  let bridge := { bridge with nextThread := key + 1 }
  Program.notify (.keepProcedure key callback)
  match ← Bridge.perform (Thread.spawn (.procedure key)) bridge with
  | (.ok thread, bridge) =>
      return (.ok (.word key), { bridge with threads := bridge.threads.insert key thread })
  | (.error error, bridge) =>
      Program.notify (.dropProcedure key)
      return (.error (.script error), bridge)

/-- Stops a thread; its procedure is dropped once it has stopped. -/
def runStop (key : UInt32) : Bridge.Step φ (Except Failure Answer) := fun bridge => do
  let (result, bridge) ← Bridge.onThread key Thread.stop bridge
  match result with
  | some (.ok ()) => Program.notify (.dropProcedure key)
  | _ => pure ()
  return (objectResult .thread key result, bridge)

/-- What a method does while it holds the bridge. -/
def run : Method φ → Bridge.Step φ (Except Failure Answer)
  | .service request => fun bridge => do
      let (result, bridge) ← Bridge.perform request.action bridge
      return (scriptResult id result, bridge)
  | on kind tag callback => fun bridge => do
      let (result, bridge) ← Bridge.onSession (Session.on kind tag (.immediate callback)) bridge
      return (scriptResult .handle result, bridge)
  | off id => fun bridge => do
      let (result, bridge) ← Bridge.onSession (Session.off id) bridge
      return (scriptResult (fun _ => .nothing) result, bridge)
  | clearHooks => fun bridge => do
      let (result, bridge) ← Bridge.onSession Session.clearHooks bridge
      return (scriptResult (fun _ => .nothing) result, bridge)
  | createSocket => fun bridge => do
      match ← Bridge.perform bridge.session.createSocket bridge with
      | (.ok socket, bridge) =>
          let fd := socket.fd.value
          Program.notify (.opened (.socket socket.fd))
          return (.ok (.word fd), { bridge with sockets := bridge.sockets.insert fd socket })
      | (.error error, bridge) => return (.error (.script error), bridge)
  | connect fd host port callback => fun bridge => do
      let handler := (callback.map .deferred).getD .silent
      let (result, bridge) ← Bridge.onSocket fd (Socket.connect host port handler) bridge
      return (objectResult .socket fd result, bridge)
  | onData fd callback => fun bridge => do
      let (result, bridge) ← Bridge.onSocket fd (Socket.onData (.deferred callback)) bridge
      return (objectResult .socket fd result, bridge)
  | onClose fd callback => fun bridge => do
      let (result, bridge) ← Bridge.onSocket fd (Socket.onClose (.deferred callback)) bridge
      return (objectResult .socket fd result, bridge)
  | write fd data callback => fun bridge => do
      let (result, bridge) ←
        Bridge.onSocket fd (Socket.write data (callback.map .deferred)) bridge
      return (objectResult .socket fd result, bridge)
  | close fd => fun bridge => do
      let (result, bridge) ← Bridge.onSocket fd Socket.close bridge
      return (objectResult .socket fd result, bridge)
  | createServer port => fun bridge => do
      match ← Bridge.perform (bridge.session.createServer port) bridge with
      | (.ok server, bridge) =>
          let fd := server.fd.value
          Program.notify (.opened (.server server.fd))
          return (.ok (.word fd), { bridge with servers := bridge.servers.insert fd server })
      | (.error error, bridge) => return (.error (.script error), bridge)
  | listen fd port => fun bridge => do
      let (result, bridge) ← Bridge.onServer fd (Server.listen port) bridge
      return (objectResult .server fd result, bridge)
  | onConnection fd callback => fun bridge => do
      let (result, bridge) ← Bridge.onServer fd (Server.onConnection (.deferred callback)) bridge
      return (objectResult .server fd result, bridge)
  | spawn callback => runSpawn callback
  | threadState key => fun bridge =>
      match bridge.threads.find? key with
      | none => return (.error (.unknownDescriptor .thread key), bridge)
      | some thread => return (.ok (.word thread.state.code.toUInt32), bridge)
  | suspendThread key => fun bridge => do
      let (result, bridge) ← Bridge.onThread key Thread.suspend bridge
      return (objectResult .thread key result, bridge)
  | resumeThread key => fun bridge => do
      let (result, bridge) ← Bridge.onThread key Thread.resume bridge
      return (objectResult .thread key result, bridge)
  | stopThread key => runStop key

end Method

end EmuScript.Engine
