import SicXe.Fault
import SicXe.Isa.Directive
import SicXe.Isa.Opcode
import SicXe.Statement

/-!
# Records and programs

A record is a line of source with everything the assembler finds out about it. The layout of a
program fills in the addresses and widths; the encoding adds the object bytes.
-/

namespace SicXe

/-- What a line of source turned out to be. -/
inductive Content where
  /-- A comment or a blank line. -/
  | comment
  | instruction (opcode : Opcode)
  | directive (directive : Directive)
  /-- A line with too many fields. -/
  | overfull
  /-- A statement whose mnemonic is unknown. -/
  | unknown
  deriving DecidableEq, Repr

/-- A line of source as the assembler sees it. -/
structure Record where
  /-- The line's number, counted from 1. -/
  line : Nat
  source : Text
  content : Content
  statement : Statement := {}
  address : UInt32
  width : UInt32 := 0
  object : Text := []
  faults : List Fault := []
  deriving DecidableEq, Repr

/-- A fault at the column where a field of the record first occurs in its source. -/
def Record.faultAt (record : Record) (field : Text) (cause : Cause) : Fault :=
  ⟨⟨record.line, record.source.columnOf field⟩, cause⟩

/-- A program with one record for each line up to its end. -/
structure Program where
  name : Text
  start : UInt32
  length : UInt32
  /-- The address where execution begins. -/
  entry : UInt32
  /-- The operand of the directive that ends the program. -/
  entryLabel : Text
  records : List Record
  /-- Whether the layout found no fault. -/
  errorFree : Bool
  deriving DecidableEq, Repr

end SicXe
