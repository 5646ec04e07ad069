import EmuScript.Text.Hex
import EmuScript.Text.Quoted

/-!
# Session configuration
-/

set_option autoImplicit false

namespace EmuScript

structure SessionConfig where
  /-- Bytes asked of the emulator by each read of a socket. -/
  socketBufferSize : UInt64 := 2048
  /-- Where a socket connects when the script names no host. -/
  connectHost : String := "127.0.0.1"
  /-- Where a socket connects when the script names no port. -/
  connectPort : UInt16 := 80
  /-- Width of hexadecimal text when the script names none. -/
  hexDigits : UInt64 := 8
  /-- Whether the error of a failing script is printed to the console. -/
  reportErrorsToConsole : Bool := true
  deriving DecidableEq

namespace SessionConfig

/-- The configuration as diagnostic output shows it. -/
def label (config : SessionConfig) : String :=
  "SessionConfig \x7b socket_buffer_size: " ++ toString config.socketBufferSize.toNat
    ++ ", connect_host: " ++ Text.quoted config.connectHost
    ++ ", connect_port: " ++ toString config.connectPort.toNat
    ++ ", hex_digits: " ++ toString config.hexDigits.toNat
    ++ ", report_errors_to_console: " ++ toString config.reportErrorsToConsole
    ++ " \x7d"

end SessionConfig

end EmuScript
