import SicXe.Numeral.Digits

/-!
# Quoted constants

A constant is `C'…'`, whose content stands for its own bytes, or `X'…'`, whose content is a row of
hexadecimal digits, two for each byte. An odd number of digits is read with a zero in front.
-/

namespace SicXe.Constant

/-- The kinds of constants. -/
inductive Kind where
  | characters
  | hexadecimal
  deriving DecidableEq, Repr

/-- The letter in front of the content. -/
def Kind.letter : Kind → UInt8
  | .characters => 0x43
  | .hexadecimal => 0x58

/-- The kind with the given letter. -/
def Kind.ofLetter? (b : UInt8) : Option Kind :=
  if b = 0x43 then some .characters else if b = 0x58 then some .hexadecimal else none

/-- Kind and content of a constant; the content may be empty or unreadable. -/
def split? : Text → Option (Kind × Text)
  | letter :: quote :: rest =>
    if quote = Text.apostrophe ∧ rest.getLast? = some Text.apostrophe then
      (Kind.ofLetter? letter).map (·, rest.dropLast)
    else none
  | _ => none

/-- Hexadecimal digits read from the right: a leading digit that waits for its partner, and the
bytes to the right of it. -/
structure HexRow where
  waiting : Option Nat
  bytes : Text

/-- One more digit on the left. -/
def HexRow.push (d : Nat) (row : HexRow) : HexRow :=
  match row.waiting with
  | none => ⟨some d, row.bytes⟩
  | some low => ⟨none, UInt8.ofNat (d * 16 + low) :: row.bytes⟩

/-- The bytes of the row; a digit that still waits is a byte of its own. -/
def HexRow.close (row : HexRow) : Text :=
  match row.waiting with
  | none => row.bytes
  | some low => UInt8.ofNat low :: row.bytes

/-- The bytes that a row of hexadecimal digits stands for. -/
def hexContent? (content : Text) : Option Text :=
  (content.foldr
    (fun b row => do return (← row).push (← Numeral.digit? 16 b))
    (some (⟨none, []⟩ : HexRow))).map HexRow.close

/-- The bytes that a character content stands for: its own, if they are all below 128. -/
def characterContent? (content : Text) : Option Text :=
  if content.all (·.toNat < 0x80) then some content else none

/-- The bytes of a constant with the given content, which may not be empty. -/
def content? (kind : Kind) (content : Text) : Option Text :=
  if content = [] then none
  else match kind with
    | .characters => characterContent? content
    | .hexadecimal => hexContent? content

/-- The bytes that a constant stands for. -/
def decode? (t : Text) : Option Text :=
  match split? t with
  | some (kind, content) => content? kind content
  | none => none

/-- The wording for a text that is no constant. -/
def invalid : Text := "Invalid constant"

end SicXe.Constant
