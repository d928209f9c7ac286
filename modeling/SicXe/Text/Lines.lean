import SicXe.Text.Basic

/-!
# Reading lines

A source or an object program is read line by line. A line ends at a line feed or at the end of the
text, and carriage returns at its end do not belong to it. A line may have at most 65535 bytes,
carriage returns included; a longer one ends the reading with `ReadError.tooLong`, after the lines
before it. A device that fails does so after all its text was delivered.
-/

namespace SicXe

/-- Why reading ended before the end of the text. -/
inductive ReadError where
  /-- A line has more bytes than a line may have. -/
  | tooLong
  /-- The device behind the text failed. -/
  | device (message : Text)
  deriving DecidableEq, Repr

/-- The wording of a reading failure. -/
def ReadError.message : ReadError → Text
  | .tooLong => "bufio.Scanner: token too long"
  | .device message => message

namespace Text

/-- The most bytes of a line, carriage returns included. -/
def maxLine : Nat := 65535

/-- The lines of a text, each without its line feed. A line feed at the very end begins no further
line. -/
def rawLines (t : Text) : List Text :=
  let parts := t.split lineFeed
  if parts.getLast? = some [] then parts.dropLast else parts

/-- The line without the carriage returns at its end. -/
def trimReturns (line : Text) : Text := line.trimEnd (· == carriageReturn)

end Text

/-- A text together with the failure of its device after the last byte, if it fails. -/
structure Input where
  text : Text
  failure : Option ReadError := none

/-- What reading delivers: lines, and the failure that ended it. -/
structure Lines where
  lines : List Text
  failure : Option ReadError

/-- The lines of an input up to the first failure. -/
def Input.lines (input : Input) : Lines :=
  let raw := input.text.rawLines
  let fit := raw.takeWhile (·.length ≤ Text.maxLine)
  { lines := fit.map Text.trimReturns
    failure := if fit.length = raw.length then input.failure else some .tooLong }

end SicXe
