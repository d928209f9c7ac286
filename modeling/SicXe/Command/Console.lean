import SicXe.Command.Script
import SicXe.Text.Log

/-!
# The console

Where a command runs: its directory, and whether what it writes is coloured. A command writes its
messages behind its name.
-/

namespace SicXe

/-- Where a command runs. -/
structure Console where
  /-- The absolute path of the directory that paths begin in. -/
  directory : Text
  /-- Whether messages are coloured. -/
  coloredLog : Bool := false
  /-- Whether output is coloured. -/
  coloredOutput : Bool := false
  deriving DecidableEq, Repr

namespace Console

/-- A text in bold. -/
def bold (t : Text) : Text := Text.ofString "\x1b[1m" ++ t ++ Text.ofString "\x1b[0m"

/-- A text in red. -/
def red (t : Text) : Text := Text.ofString "\x1b[31m" ++ t ++ Text.ofString "\x1b[0m"

/-- What stands in front of the messages of the given name. -/
def label (console : Console) (name : Text) : Text :=
  let mark := name ++ [0x3A]
  (if console.coloredLog then bold mark else mark) ++ [Text.blank]

/-- A script that writes a message behind a label. -/
def say (label message : Text) (next : Script) : Script := .log (Text.logEntry label message) next

/-- A script that writes messages behind a label and fails. -/
def fail (label : Text) (messages : List Text) : Script :=
  messages.foldr (say label) (.exit 1)

end Console

end SicXe
