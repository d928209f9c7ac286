import SicXe.Numeral.Digits
import SicXe.Text.Quoted

/-!
# Reading numerals

Two kinds of numerals occur: an address is hexadecimal without a sign, optionally behind `x` or
`0x`; a count is decimal with an optional sign. Both are read from left to right, and the first
flaw decides the failure: a byte that is no digit, or a value beyond 32 bits.
-/

namespace SicXe

/-- The kinds of numerals. -/
inductive Numeral.Kind where
  /-- Hexadecimal, without a sign, below `2 ^ 32`. -/
  | address
  /-- Decimal, with an optional sign, from `-2 ^ 31` to `2 ^ 31 - 1`. -/
  | count
  deriving DecidableEq, Repr

/-- Why a text is no numeral. -/
inductive NumeralError where
  /-- An `x` stands at a place where it marks no hexadecimal numeral. -/
  | misplacedMarker
  /-- The text is empty or holds a byte that is no digit. -/
  | malformed (kind : Numeral.Kind) (text : Text)
  /-- The value is out of range. -/
  | outOfRange (kind : Numeral.Kind) (text : Text)
  deriving DecidableEq, Repr

namespace Numeral

/-- The reader's name in a message. -/
def Kind.reader : Kind → Text
  | .address => "strconv.ParseUint"
  | .count => "strconv.ParseInt"

/-- A flaw that the scan of digits meets. -/
inductive Flaw where
  | notDigit
  | tooLarge
  deriving DecidableEq, Repr

/-- The error for a flaw in a text. -/
def Flaw.error (kind : Kind) (text : Text) : Flaw → NumeralError
  | .notDigit => .malformed kind text
  | .tooLarge => .outOfRange kind text

/-- The largest value that the scan of digits admits. -/
def scanLimit : Nat := 0xFFFFFFFF

/-- The value of digits behind the digits with value `value`. -/
def scanFrom (base : Nat) : (value : Nat) → Text → Except Flaw Nat
  | value, [] => .ok value
  | value, b :: t =>
    match digit? base b with
    | none => .error .notDigit
    | some d =>
      if scanLimit < value * base + d then .error .tooLarge
      else scanFrom base (value * base + d) t

/-- The value of one or more digits. -/
def scan (base : Nat) (t : Text) : Except Flaw Nat :=
  if t = [] then .error .notDigit else scanFrom base 0 t

/-- Whether a byte is the marker `x` or `X`. -/
def isMarker (b : UInt8) : Bool := b == 0x78 || b == 0x58

/-- The text behind the marker of a hexadecimal numeral, which may have a zero in front of it. A
text without a marker stays whole. -/
def afterMarker (t : Text) : Except NumeralError Text :=
  match t.findIdx? isMarker with
  | none => .ok t
  | some 0 => .ok (t.drop 1)
  | some 1 => if t.head? = some 0x30 then .ok (t.drop 2) else .error .misplacedMarker
  | some _ => .error .misplacedMarker

/-- The value of an address: `1000`, `x1000`, `0x1000`. -/
def decodeAddress (t : Text) : Except NumeralError UInt32 :=
  match afterMarker t with
  | .error e => .error e
  | .ok digits =>
    match scan 16 digits with
    | .error flaw => .error (flaw.error .address digits)
    | .ok n => .ok (UInt32.ofNat n)

/-- The sign of a count and the text behind it; `true` stands for minus. -/
def splitSign : Text → Bool × Text
  | [] => (false, [])
  | b :: t => if b = 0x2D then (true, t) else if b = 0x2B then (false, t) else (false, b :: t)

/-- The value of a count: `123`, `-123`, `+123`. -/
def decodeCount (t : Text) : Except NumeralError Int64 :=
  let (negative, digits) := splitSign t
  match scan 10 digits with
  | .error flaw => .error (flaw.error .count t)
  | .ok n =>
    if negative then
      if 0x80000000 < n then .error (.outOfRange .count t) else .ok (Int64.ofInt (-(n : Int)))
    else if 0x80000000 ≤ n then .error (.outOfRange .count t) else .ok (Int64.ofInt n)

end Numeral

/-- The wording of a numeral's flaw. -/
def NumeralError.message : NumeralError → Text
  | .misplacedMarker => "Invalid hex string"
  | .malformed kind text =>
    kind.reader ++ Text.ofString ": parsing " ++ text.quoted ++ Text.ofString ": invalid syntax"
  | .outOfRange kind text =>
    kind.reader ++ Text.ofString ": parsing " ++ text.quoted ++
      Text.ofString ": value out of range"

end SicXe
