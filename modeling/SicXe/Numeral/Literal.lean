import SicXe.Numeral.Decode

/-!
# Number literals

A literal is a number without a sign that tells its own base: behind `0b`, `0o` or `0x` it is
binary, octal or hexadecimal, with any other zero in front octal, and otherwise decimal. Single
underscores may divide its digits, and the mark of the base from the digits.
-/

namespace SicXe.Numeral

/-- The digit zero, which begins the mark of a base. -/
def zero : UInt8 := 0x30

/-- The underscore, which divides digits. -/
def divider : UInt8 := 0x5F

/-- The base that a letter behind a zero marks, in either case. -/
def markedBase? (b : UInt8) : Option Nat :=
  if b = 0x62 ∨ b = 0x42 then some 2
  else if b = 0x6F ∨ b = 0x4F then some 8
  else if isMarker b then some 16
  else none

/-- The base of a literal, and its digits with their dividers. A mark stands for its zero, so that a
divider may follow it; a mark with nothing behind it is none. -/
def splitBase (t : Text) : Nat × Text :=
  if t.head? = some zero then
    match t.tail with
    | letter :: b :: rest =>
      match markedBase? letter with
      | some base => (base, zero :: b :: rest)
      | none => (8, t)
    | _ => (8, t)
  else (10, t)

/-- Whether every divider stands between two other bytes. -/
def isDivided (t : Text) : Bool :=
  t.head? ≠ some divider && t.getLast? ≠ some divider &&
    (t.zip t.tail).all fun (b, c) => b ≠ divider || c ≠ divider

/-- The value of a literal of 32 bits: `16`, `0x10`, `0o20`, `020`, `0b1_0000`. -/
def literal? (t : Text) : Option UInt32 :=
  let (base, digits) := splitBase t
  if isDivided digits then
    (scan base (digits.filter (· ≠ divider))).toOption.map UInt32.ofNat
  else none

end SicXe.Numeral
