import EmuScript.Numeric.Binary
import EmuScript.Text.Utf8

/-!
# Byte memory

A memory of the emulated machine: a byte at every 32-bit address, where ranges
run past the last address to the first. Numbers are stored with their most
significant byte first.
-/

set_option autoImplicit false

namespace EmuScript.Emulator

open Numeric

/-- The lowest `count` bytes of a natural number, most significant first. -/
def bigEndianBytes : Nat → Nat → Bytes
  | 0, _ => []
  | count + 1, value => UInt8.ofNat (value / Nat.pow 256 count) :: bigEndianBytes count value

def bigEndianValue (bytes : Bytes) : Nat :=
  bytes.foldl (fun value byte => value * 256 + byte.toNat) 0

/-- A byte at every address: zero, unless something was stored there. -/
inductive Memory where
  | blank
  | stored (before : Memory) (address : UInt32) (data : Array UInt8)
  deriving DecidableEq

namespace Memory

def byteAt : Memory → UInt32 → UInt8
  | blank, _ => 0
  | stored before address data, place =>
      match data[(place - address).toNat]? with
      | some byte => byte
      | none => before.byteAt place

/-- The bytes of the range of `count` bytes from an address on. -/
def read (memory : Memory) (address : UInt32) : Nat → Bytes
  | 0 => []
  | count + 1 => memory.byteAt address :: memory.read (address + 1) count

def write (memory : Memory) (address : UInt32) (bytes : Bytes) : Memory :=
  .stored memory address bytes.toArray

/-- A store is seen within its range, and nowhere else. -/
theorem byteAt_write (memory : Memory) (address place : UInt32) (bytes : Bytes) :
    (memory.write address bytes).byteAt place =
      (bytes[(place - address).toNat]?).getD (memory.byteAt place) := by
  cases found : bytes[(place - address).toNat]? <;> simp [write, byteAt, found]

/-- The bytes before the first zero byte, looking at no more than `limit`. -/
def readTerminated (memory : Memory) (address : UInt32) : Nat → Bytes
  | 0 => []
  | limit + 1 =>
      if memory.byteAt address = 0 then []
      else memory.byteAt address :: memory.readTerminated (address + 1) limit

/-- The integer of `bits / 8` bytes at an address. -/
def readInt (memory : Memory) (address bits : UInt32) (signed : Bool) : Int :=
  let count := bits.toNat / 8
  let value := bigEndianValue (memory.read address count)
  if signed && Nat.pow 256 count ≤ 2 * value then (value : Int) - Nat.pow 256 count else value

/-- Stores the low `bits / 8` bytes of an integer in two's complement. -/
def writeInt (memory : Memory) (address bits : UInt32) (value : Int) : Memory :=
  let count := bits.toNat / 8
  memory.write address (bigEndianBytes count (value % Nat.pow 256 count).toNat)

/-- The number of 64 bits at an address, or the one of 32 bits as one of 64. -/
def readFloat (memory : Memory) (address : UInt32) (double : Bool) : Double :=
  if double then ⟨BitVec.ofNat _ (bigEndianValue (memory.read address 8))⟩
  else Single.toDouble ⟨BitVec.ofNat _ (bigEndianValue (memory.read address 4))⟩

/-- Stores a number in 64 bits, or rounded in 32; a NaN loses its payload. -/
def writeFloat (memory : Memory) (address : UInt32) (value : Double) (double : Bool) : Memory :=
  if double then memory.write address (bigEndianBytes 8 value.canonical.bits.toNat)
  else memory.write address (bigEndianBytes 4 value.toSingle.bits.toNat)

/-- The text before the first zero byte, if it is valid. -/
def readString? (memory : Memory) (address : UInt32) : Option String :=
  Text.ofUtf8? (memory.readTerminated address UInt32.size)

def writeString (memory : Memory) (address : UInt32) (text : String) : Memory :=
  memory.write address (Text.toUtf8 text ++ [0])

end Memory

end EmuScript.Emulator
