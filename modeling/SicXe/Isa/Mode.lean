import SicXe.Text.Basic

/-!
# The two machines

The base machine SIC has 32 KiB of memory and instructions of one size; the extended machine SIC/XE
has 1 MiB and four instruction formats.
-/

namespace SicXe

/-- The machine that a program is assembled for. -/
inductive Mode where
  | sic
  | xe
  deriving DecidableEq, Repr

namespace Mode

/-- The machine's name. -/
def name : Mode → Text
  | .sic => "SIC"
  | .xe => "SIC/XE"

/-- The number of bytes of memory. -/
def memorySize : Mode → UInt32
  | .sic => 0x8000
  | .xe => 0x100000

/-- The number that stands for the machine in a symbol file. -/
def code : Mode → UInt64
  | .sic => 0
  | .xe => 1

/-- The machine with the given number: every number but zero stands for SIC/XE. -/
def ofCode (n : UInt64) : Mode := if n = 0 then .sic else .xe

/-- The machine with the given short name, as flags and messages write it. -/
def ofName? (t : Text) : Option Mode :=
  if t = "sic" then some .sic else if t = "xe" then some .xe else none

end Mode

end SicXe
