import SicXe.Numeral.Digits
import SicXe.Word

/-!
# The machine

A machine has memory, a program counter, and the header of the program that was loaded last. Memory
is read in words of three bytes and dumped in rows of sixteen.
-/

namespace SicXe

/-- Name, start and length of a loaded program. -/
structure Header where
  name : Text := []
  start : UInt32 := 0
  length : UInt32 := 0
  deriving DecidableEq, Repr

/-- A machine. -/
structure Machine where
  memory : Array UInt8 := #[]
  /-- The program counter. -/
  counter : UInt32 := 0
  header : Header := {}
  deriving DecidableEq, Repr

/-- A range of addresses that is not in memory. -/
inductive BoundsError where
  /-- The range ends beyond the memory. -/
  | beyond (high : UInt32) (size : Nat)
  /-- The range ends before it begins. -/
  | reversed (low high : UInt32)
  deriving DecidableEq, Repr

/-- The wording of a range that is not in memory. -/
def BoundsError.message : BoundsError → Text
  | .beyond high size =>
    Text.ofString "runtime error: slice bounds out of range [:" ++ Numeral.decimal high.toNat ++
      Text.ofString "] with capacity " ++ Numeral.decimal size
  | .reversed low high =>
    Text.ofString "runtime error: slice bounds out of range [" ++ Numeral.decimal low.toNat ++
      0x3A :: Numeral.decimal high.toNat ++ Text.ofString "]"

namespace Machine

/-- The number of bytes of memory, in 32 bits. -/
def size (machine : Machine) : UInt32 := UInt32.ofNat machine.memory.size

/-- The machine with the given number of bytes of memory, all zero, and its counter at zero. The
header stays. -/
def reset (machine : Machine) (size : UInt32) : Machine :=
  { machine with memory := Array.replicate size.toNat 0, counter := 0 }

/-- The memory with bytes written from an address on; bytes beyond its end are lost. -/
def write (memory : Array UInt8) (address : Nat) : Text → Array UInt8
  | [] => memory
  | b :: data => write (memory.setIfInBounds address b) (address + 1) data

/-- The bytes of memory from one address up to another. -/
def bytes (machine : Machine) (low high : Nat) : Text := (machine.memory.extract low high).toList

/-- The word at an address. The end of the word is an address of 32 bits. -/
def word (machine : Machine) (address : UInt32) : Except BoundsError UInt32 :=
  let stop := address + 3
  if machine.memory.size < stop.toNat then .error (.beyond stop machine.memory.size)
  else if stop < address then .error (.reversed address stop)
  else .ok (Word.ofBytes (machine.bytes address.toNat stop.toNat))

/-! ## Dumps -/

/-- The bytes of a row. -/
def rowWidth : Nat := 16

/-- The address of a row, in bold if coloured. -/
def rowAddress (colored : Bool) (address : Nat) : Text :=
  let label := 0x5B :: Numeral.hex 5 address ++ [0x5D]
  if colored then Text.ofString "\x1b[1m" ++ label ++ Text.ofString "\x1b[0m" else label

/-- A byte of a row; a zero is dimmed if coloured. -/
def rowByte (colored : Bool) (b : UInt8) : Text :=
  if colored && b == 0 then
    Text.ofString " \x1b[1;30m" ++ Numeral.hex 2 b.toNat ++ Text.ofString "\x1b[0m"
  else Text.blank :: Numeral.hex 2 b.toNat

/-- A row. -/
def row (colored : Bool) (address : Nat) (data : Text) : Text :=
  rowAddress colored address ++ data.flatMap (rowByte colored) ++ [Text.lineFeed]

/-- Where a dump ends: after the given number of bytes, or at the end of memory if that is sooner
or the sum of address and number exceeds 32 bits. -/
def dumpEnd (machine : Machine) (address count : UInt32) : Nat :=
  let stop := address + count
  if machine.size < stop ∨ stop < address then machine.size.toNat else stop.toNat

/-- The dump of so many bytes from an address on. -/
def dump (machine : Machine) (address count : UInt32) (colored : Bool) : Text :=
  let first := address.toNat
  let stop := machine.dumpEnd address count
  (List.range ((stop - first + (rowWidth - 1)) / rowWidth)).flatMap fun k =>
    let low := first + k * rowWidth
    row colored low (machine.bytes low (min (low + rowWidth) stop))

end Machine

end SicXe
