import EmuScript.Console
import EmuScript.Hook.Registry
import EmuScript.Socket.Request
import EmuScript.Socket.Server
import EmuScript.Thread.Basic

/-!
# Sessions

A session is what scripts run in: a configuration, which its sockets, servers
and hexadecimal texts follow, and a registry for its hooks. The other
capabilities of the library need no session. A session reports the error of a
script that fails.
-/

set_option autoImplicit false

namespace EmuScript

structure Session (κ : Type) where
  config : SessionConfig := {}
  hooks : HookRegistry κ := {}

namespace Session

variable {κ α : Type}

def updateHooks (update : Update κ (HookRegistry κ) α) : Update κ (Session κ) α :=
  ExceptT.mk fun session => do
    let (result, hooks) ← update.on session.hooks
    return (result, { session with hooks })

def on (kind : HookKind) (tag : UInt32) (callback : κ) : Update κ (Session κ) HookHandle :=
  updateHooks (HookRegistry.install kind tag callback)

def off (id : CallbackId) : Update κ (Session κ) (Registration κ) :=
  updateHooks (HookRegistry.remove id)

def clearHooks : Update κ (Session κ) Unit :=
  updateHooks HookRegistry.clear

def hex (session : Session κ) (value : UInt32) : String :=
  Text.hex value session.config.hexDigits.toNat

def createSocket (session : Session κ) : Action κ (Socket κ) :=
  Socket.create session.config

def createServer (session : Session κ) (port : Option UInt16) : Action κ (Server κ) :=
  Server.create port session.config

/-- The value of a script that has ended. An error is reported on the console
when the configuration asks for it, otherwise only logged. -/
def conclude (session : Session κ) (outcome : Except ScriptError α) :
    HostProgram κ (Option α) := do
  match outcome with
  | .ok value => return some value
  | .error error =>
      if session.config.reportErrorsToConsole then
        match ← (Console.reportError error : Action κ Unit).run with
        | .ok () => return none
        | .error failure =>
            HostProgram.log .warn
              s!"could not report script error to console: {failure.message}"
            return none
      else
        HostProgram.log .error s!"script error: {error.message}"
        return none

/-- Runs a script and reports its error, if any. -/
def run (session : Session κ) (script : Update κ (Session κ) α) :
    HostProgram κ (Option α × Session κ) := do
  let (outcome, session) ← script.on session
  return (← session.conclude outcome, session)

end Session

end EmuScript
