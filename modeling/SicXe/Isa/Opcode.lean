import SicXe.Isa.Format
import SicXe.Isa.Mode

/-!
# Mnemonics and registers

The directory of the extended machine has 59 instructions. The base machine knows 29 of them, all in
its own three-byte format. An instruction of format 3 has a variant of format 4, written with a plus
sign in front of the mnemonic.
-/

namespace SicXe

/-- An instruction of a machine. -/
structure Opcode where
  mnemonic : Text
  code : UInt8
  format : Format
  deriving DecidableEq, Repr

namespace Opcode

/-- An instruction that both machines have; on the extended machine it has format 3. -/
def shared (mnemonic : String) (code : UInt8) : Opcode × Bool := (⟨mnemonic, code, .three⟩, true)

/-- An instruction of the extended machine only. -/
def extended (mnemonic : String) (code : UInt8) (format : Format) : Opcode × Bool :=
  (⟨mnemonic, code, format⟩, false)

/-- All instructions as the extended machine has them, marked when the base machine has them too. -/
def table : List (Opcode × Bool) :=
  [shared "ADD" 0x18, extended "ADDF" 0x58 .three, extended "ADDR" 0x90 .two, shared "AND" 0x40,
   extended "CLEAR" 0xB4 .two, shared "COMP" 0x28, extended "COMPF" 0x88 .three,
   extended "COMPR" 0xA0 .two, shared "DIV" 0x24, extended "DIVF" 0x64 .three,
   extended "DIVR" 0x9C .two, extended "FIX" 0xC4 .one, extended "FLOAT" 0xC0 .one,
   extended "HIO" 0xF4 .one, shared "J" 0x3C, shared "JEQ" 0x30, shared "JGT" 0x34,
   shared "JLT" 0x38, shared "JSUB" 0x48, shared "LDA" 0x00, extended "LDB" 0x68 .three,
   shared "LDCH" 0x50, extended "LDF" 0x70 .three, shared "LDL" 0x08, extended "LDS" 0x6C .three,
   extended "LDT" 0x74 .three, shared "LDX" 0x04, shared "LPS" 0xD0, shared "MUL" 0x20,
   extended "MULF" 0x60 .three, extended "MULR" 0x98 .two, extended "NORM" 0xC8 .one,
   shared "OR" 0x44, shared "RD" 0xD8, extended "RMO" 0xAC .two, shared "RSUB" 0x4C,
   extended "SHIFTL" 0xA4 .two, extended "SHIFTR" 0xA8 .two, extended "SIO" 0xF0 .one,
   shared "SSK" 0xEC, shared "STA" 0x0C, extended "STB" 0x78 .three, shared "STCH" 0x54,
   extended "STF" 0x80 .three, shared "STI" 0xD4, shared "STL" 0x14, extended "STS" 0x7C .three,
   shared "STSW" 0xE8, extended "STT" 0x84 .three, shared "STX" 0x10, shared "SUB" 0x1C,
   extended "SUBF" 0x5C .three, extended "SUBR" 0x94 .two, extended "SVC" 0xB0 .two,
   shared "TD" 0xE0, extended "TIO" 0xF8 .one, shared "TIX" 0x2C, extended "TIXR" 0xB8 .two,
   shared "WD" 0xDC]

/-- The sign in front of the mnemonic of a format 4 instruction. -/
def extendedMarker : UInt8 := 0x2B

end Opcode

namespace Mode

/-- The instructions of a machine. -/
def opcodes : Mode → List Opcode
  | .xe => Opcode.table.map (·.1)
  | .sic => (Opcode.table.filter (·.2)).map fun entry => { entry.1 with format := .sic }

/-- The instruction with the given mnemonic. -/
def plainOpcode? (mode : Mode) (mnemonic : Text) : Option Opcode :=
  mode.opcodes.find? (·.mnemonic == mnemonic)

/-- The format 4 instruction with the given mnemonic, plus sign included. Only format 3
instructions of the extended machine have one. -/
def extendedOpcode? (mode : Mode) (mnemonic : Text) : Option Opcode :=
  match mode, mnemonic with
  | .xe, marker :: name =>
    if marker = Opcode.extendedMarker then
      match Mode.xe.plainOpcode? name with
      | some opcode => if opcode.format = .three then some { opcode with format := .four } else none
      | none => none
    else none
  | _, _ => none

/-- The instruction with the given mnemonic, with or without a plus sign. -/
def opcode? (mode : Mode) (mnemonic : Text) : Option Opcode :=
  (mode.plainOpcode? mnemonic).or (mode.extendedOpcode? mnemonic)

end Mode

/-- The registers that an operand can name, with their numbers. -/
def registers : List (Text × UInt8) :=
  [("A", 0), ("X", 1), ("L", 2), ("B", 3), ("S", 4), ("T", 5), ("F", 6), ("PC", 8), ("SW", 9)]

/-- The number of the register with the given name. -/
def register? (name : Text) : Option UInt8 := (registers.find? (·.1 == name)).map (·.2)

end SicXe
