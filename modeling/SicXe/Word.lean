import SicXe.Text.Basic

/-!
# Bit fields

A field of an instruction holds the low bits of a value. `mask` cuts a value to a field,
`fitsSigned` and `fitsUnsigned` tell whether a field of that many bits holds it as a signed or an
unsigned number, and `ofBytes` reads bytes as one big-endian value.
-/

namespace SicXe.Word

/-- The low `bits` bits of a value, at most 32. -/
def mask (value : Int64) (bits : Nat) : UInt32 :=
  let ones : UInt32 := if bits < 32 then UInt32.ofNat (Nat.pow 2 bits) - 1 else 0xFFFFFFFF
  value.toUInt64.toUInt32 &&& ones

/-- The number `2 ^ bits` in 64 bits: negative for 63 bits, and zero beyond. -/
def power (bits : Nat) : Int64 := if bits < 64 then Int64.ofNat (Nat.pow 2 bits) else 0

/-- Whether the value is a signed number of that many bits. No bits, and more than 64, hold
nothing. -/
def fitsSigned (value : Int64) (bits : Nat) : Bool :=
  let limit : Int64 := if bits = 0 then 0 else power (bits - 1)
  decide (-limit ≤ value) && decide (value < limit)

/-- Whether the value is an unsigned number of that many bits. The bound is a number of 64 bits, so
63 bits and more hold nothing. -/
def fitsUnsigned (value : Int64) (bits : Nat) : Bool :=
  decide (0 ≤ value) && decide (value < power bits)

/-- The big-endian value of bytes; of more than four bytes only the last four count. -/
def ofBytes (data : Text) : UInt32 := data.foldl (fun value b => (value <<< 8) ||| b.toUInt32) 0

end SicXe.Word
