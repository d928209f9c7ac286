import SicXe.Text.Basic

/-!
# Digits

The value of a digit, and the text of a number in a base of at most 36, with upper case or lower
case letters for the digits above nine.
-/

namespace SicXe.Numeral

/-- The value of a digit: `0` to `9`, then letters of either case from ten on. -/
def digitValue? (b : UInt8) : Option Nat :=
  let n := b.toNat
  if 0x30 ≤ n ∧ n ≤ 0x39 then some (n - 0x30)
  else if 0x41 ≤ n ∧ n ≤ 0x5A then some (n - 0x41 + 10)
  else if 0x61 ≤ n ∧ n ≤ 0x7A then some (n - 0x61 + 10)
  else none

/-- The value of a digit of the given base. -/
def digit? (base : Nat) (b : UInt8) : Option Nat :=
  match digitValue? b with
  | some d => if d < base then some d else none
  | none => none

/-- The digit with the given value, in upper case. -/
def upperDigit (d : Nat) : UInt8 := UInt8.ofNat (if d < 10 then 0x30 + d else 0x37 + d)

/-- The digit with the given value, in lower case. -/
def lowerDigit (d : Nat) : UInt8 := UInt8.ofNat (if d < 10 then 0x30 + d else 0x57 + d)

/-- The digits of `n` in front of `low`, as far as `fuel` reaches. -/
def digitsBefore (digit : Nat → UInt8) (base : Nat) : (fuel n : Nat) → (low : Text) → Text
  | 0, _, low => low
  | fuel + 1, n, low =>
    if n < base then digit n :: low
    else digitsBefore digit base fuel (n / base) (digit (n % base) :: low)

/-- The digits of a number, without leading zeros. A number has no more digits than its own value
and one, so the fuel never runs out. -/
def digits (digit : Nat → UInt8) (base n : Nat) : Text := digitsBefore digit base (n + 1) n []

/-- The text filled up on the left with zeros to `width` bytes; a longer text stays whole. -/
def zeroPad (width : Nat) (t : Text) : Text := List.replicate (width - t.length) 0x30 ++ t

/-- Upper case hexadecimal with at least `width` digits. -/
def hex (width n : Nat) : Text := zeroPad width (digits upperDigit 16 n)

/-- Lower case hexadecimal behind `0x`. -/
def prefixedHex (n : Nat) : Text := Text.ofString "0x" ++ digits lowerDigit 16 n

/-- Decimal. -/
def decimal (n : Nat) : Text := digits upperDigit 10 n

/-- Signed decimal: a minus sign in front of a negative number. -/
def signedDecimal (n : Int) : Text :=
  if n < 0 then 0x2D :: decimal n.natAbs else decimal n.natAbs

/-- Signed decimal filled up with zeros behind the sign to `width` bytes in all. -/
def paddedDecimal (width : Nat) (n : Int) : Text :=
  if n < 0 then 0x2D :: zeroPad (width - 1) (decimal n.natAbs) else zeroPad width (decimal n.natAbs)

/-- Two upper case hexadecimal digits for each byte. -/
def hexBytes (data : Text) : Text :=
  data.flatMap fun b => [upperDigit (b.toNat / 16), upperDigit (b.toNat % 16)]

end SicXe.Numeral
