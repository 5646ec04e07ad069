import EmuScript.Host.Action

/-!
# Console

Text for the user: console lines, which end in a carriage return and a line
feed, and modal messages.
-/

set_option autoImplicit false

namespace EmuScript.Console

variable {κ : Type}

def lineEnd : String := "\r\n"

/-- The parts, separated by single spaces, as one line. -/
def logLine (parts : List String) : String :=
  " ".intercalate parts ++ lineEnd

def errorLine (message : String) : String :=
  logLine ["error:", message]

def print (text : String) : Action κ Unit :=
  Action.ask (.console (.print text))

def log (parts : List String) : Action κ Unit :=
  print (logLine parts)

def clear : Action κ Unit :=
  Action.ask (.console .clear)

/-- Shows a modal message, by default without a caption. -/
def alert (text : String) (caption : Option String) : Action κ Unit :=
  Action.ask (.console (.messageBox text (caption.getD "")))

/-- Logs an error and prints it as one line. -/
def reportError (error : ScriptError) : Action κ Unit := do
  Action.log .error s!"script error: {error.message}"
  print (errorLine error.message)

end EmuScript.Console
