import SicXe.Text.Basic

/-!
# Formats and addressing bits

A statement that yields object code has a format: the one format of the base machine, the formats 1
to 4 of the extended machine, or one of the two data formats. Formats 3 and 4 carry the six
addressing bits n, i, x, b, p and e; the base machine has only x.
-/

namespace SicXe

/-- The format of a statement's object code. -/
inductive Format where
  | sic
  | one
  | two
  | three
  | four
  | byte
  | word
  /-- No format of either machine. -/
  | unknown
  deriving DecidableEq, Repr

namespace Format

/-- The format's name. -/
def name : Format → Text
  | .sic => "SIC"
  | .one => "1"
  | .two => "2"
  | .three => "3"
  | .four => "4"
  | .byte => "BYTE"
  | .word => "WORD"
  | .unknown => "<invalid>"

/-- The number of bytes of an instruction of this format. -/
def width : Format → UInt32
  | .one => 1
  | .two => 2
  | .four => 4
  | _ => 3

/-- The number of bits of the address field. -/
def addressBits : Format → Nat
  | .sic => 15
  | .four => 20
  | _ => 12

end Format

/-- The addressing bits of an instruction. -/
structure Flags where
  /-- Indirect. -/
  n : Bool := false
  /-- Immediate. -/
  i : Bool := false
  /-- Indexed. -/
  x : Bool := false
  /-- Relative to the base register. -/
  b : Bool := false
  /-- Relative to the statement. -/
  p : Bool := false
  /-- Extended: four bytes. -/
  e : Bool := false
  deriving DecidableEq, Repr

namespace Flags

/-- The bits as the number `nixbpe`. -/
def toByte (f : Flags) : UInt8 :=
  (if f.n then 0x20 else 0) ||| (if f.i then 0x10 else 0) ||| (if f.x then 0x08 else 0) |||
    (if f.b then 0x04 else 0) ||| (if f.p then 0x02 else 0) ||| (if f.e then 0x01 else 0)

/-- The bits of a number; the two highest bits of the byte have no meaning. -/
def ofByte (v : UInt8) : Flags :=
  { n := v &&& 0x20 != 0
    i := v &&& 0x10 != 0
    x := v &&& 0x08 != 0
    b := v &&& 0x04 != 0
    p := v &&& 0x02 != 0
    e := v &&& 0x01 != 0 }

/-- The six bits from n to e. -/
def text (f : Flags) : Text :=
  [f.n, f.i, f.x, f.b, f.p, f.e].map fun bit => if bit then 0x31 else 0x30

end Flags

end SicXe
