import SicXe.Operand

/-!
# Object code of a statement

An instruction with its resolved operand is encoded in the bit layout of its format. The address
field of a format 3 instruction that names a label is relative: to the statement itself when that is
near enough, else to the base register. Everything else carries the value itself.

`Instruction.encode` has one failure that a program can cause, a target out of reach. A `Defect` is
a call with an operand that does not suit the format.
-/

namespace SicXe

/-- A statement ready for encoding. -/
structure Instruction where
  mnemonic : Text := []
  opcode : UInt8 := 0
  /-- The operand as written. -/
  operand : Text := []
  target : Operand := {}
  format : Format
  /-- The address of the statement. -/
  source : UInt32 := 0
  /-- The content of the base register. -/
  base : UInt32 := 0
  /-- The content of the index register. -/
  index : UInt32 := 0
  deriving DecidableEq, Repr

/-- An operand that does not suit the format it is encoded in. -/
inductive Defect where
  | noLayout (format : Format)
  | uncheckedByte (operand : Text)
  | needsRegisters (mnemonic : Text)
  | unresolved (operand : Text)
  deriving DecidableEq, Repr

/-- The wording of a defect. -/
def Defect.message : Defect → Text
  | .noLayout format => Text.ofString "assembler: cannot pack format " ++ format.name
  | .uncheckedByte operand =>
    Text.ofString "assembler: unchecked BYTE operand " ++ operand.quoted
  | .needsRegisters mnemonic =>
    Text.ofString "assembler: " ++ mnemonic ++ Text.ofString " needs register operands"
  | .unresolved operand => Text.ofString "assembler: unresolved operand " ++ operand.quoted

/-- Why a statement was not encoded. -/
inductive EncodeError where
  | fault (cause : Cause)
  | defect (defect : Defect)
  deriving DecidableEq, Repr

/-- What an address field counts from. -/
inductive Origin where
  /-- Nothing: the field is the value itself. -/
  | zero
  /-- The statement's own address. -/
  | statement
  /-- The base register. -/
  | base
  deriving DecidableEq, Repr

/-- The content of an address field. -/
structure Displacement where
  value : UInt32
  origin : Origin
  deriving DecidableEq, Repr

namespace Instruction

/-- The bits n, i, x and e of formats 3 and 4, or the bit x of the base machine's format. Without
an operand, formats 3 and 4 have n and i only. -/
def addressingFlags (inst : Instruction) : Flags :=
  match inst.format with
  | .sic => { x := inst.target.indexed }
  | .three | .four =>
    if inst.target.kind = .none then { n := true, i := true }
    else
      { n := inst.target.addressing ≠ .immediate
        i := inst.target.addressing ≠ .indirect
        x := inst.target.indexed
        e := inst.format = .four }
  | _ => {}

/-- Whether the address field is relative: format 3, and a simple operand without index that is no
literal. -/
def isRelative (inst : Instruction) : Bool :=
  inst.format = .three && inst.target.kind ≠ .literal && inst.target.addressing = .simple &&
    !inst.target.indexed

/-- The value that the address field has to express. An indexed simple operand counts from the
index register. -/
def effectiveValue (inst : Instruction) : Int64 :=
  if inst.target.indexed ∧ inst.target.addressing = .simple then
    inst.target.value + Int64.ofInt inst.index.toNat
  else inst.target.value

/-- The address field of a relative operand: from the statement if the distance is a signed number
of 12 bits, else from the base register if the distance is an unsigned one. -/
def relativeDisplacement (inst : Instruction) : Except Cause Displacement :=
  let fromStatement := inst.effectiveValue - Int64.ofInt inst.source.toNat
  let fromBase := inst.effectiveValue - Int64.ofInt inst.base.toNat
  if Word.fitsSigned fromStatement 12 then .ok ⟨Word.mask fromStatement 12, .statement⟩
  else if Word.fitsUnsigned fromBase 12 then .ok ⟨Word.mask fromBase 12, .base⟩
  else .error (.outOfReach fromBase)

/-- The address field. -/
def displacement (inst : Instruction) : Except Cause Displacement :=
  match inst.format with
  | .one | .two | .byte => .ok ⟨0, .zero⟩
  | .word => .ok ⟨Word.mask inst.target.value 24, .zero⟩
  | _ =>
    if inst.target.kind = .none then .ok ⟨0, .zero⟩
    else if inst.isRelative then inst.relativeDisplacement
    else .ok ⟨Word.mask inst.effectiveValue inst.format.addressBits, .zero⟩

/-- The byte of a word that begins at bit `shift`. -/
def byteAt (value shift : UInt32) : UInt8 := (value >>> shift).toUInt8

/-- The first byte of formats 3 and 4: the upper six bits of the opcode, then n and i. -/
def opcodeByte (opcode : UInt8) (flags : Flags) : UInt8 :=
  (opcode &&& 0xFC) ||| (flags.toByte / 16 &&& 0x3)

/-- The second byte of formats 3 and 4: x, b, p and e, then the upper four bits of the field. -/
def flagByte (flags : Flags) (high : UInt8) : UInt8 :=
  (flags.toByte &&& 0xF) * 16 ||| (high &&& 0xF)

/-- The second byte of the base machine's format: x, then the upper seven bits of the address. -/
def indexByte (indexed : Bool) (high : UInt8) : UInt8 :=
  (bif indexed then 0x80 else 0x00) ||| (high &&& 0x7F)

/-- The second byte of format 2: two register numbers. -/
def registerByte (first second : UInt8) : UInt8 := (first &&& 0xF) * 16 ||| (second &&& 0xF)

/-- Opcode, flags and address field in the bit layout of a format. In format 2 the two values are
the register numbers; for a word, the first value is the word. -/
def pack (format : Format) (opcode : UInt8) (flags : Flags) (value second : UInt32) :
    Except Defect Text :=
  match format with
  | .sic => .ok [opcode, indexByte flags.x (byteAt value 8), byteAt value 0]
  | .one => .ok [opcode]
  | .two => .ok [opcode, registerByte (byteAt value 0) (byteAt second 0)]
  | .three =>
    .ok [opcodeByte opcode flags, flagByte flags (byteAt value 8), byteAt value 0]
  | .four =>
    .ok [opcodeByte opcode flags, flagByte flags (byteAt value 16), byteAt value 8, byteAt value 0]
  | .word => .ok [byteAt value 16, byteAt value 8, byteAt value 0]
  | .byte | .unknown => .error (.noLayout format)

/-- The flags with the bit for the origin of the address field. -/
def withOrigin (flags : Flags) : Origin → Flags
  | .zero => flags
  | .statement => { flags with p := true }
  | .base => { flags with b := true }

/-- The layout of a format as an encoding. -/
def layOut (format : Format) (opcode : UInt8) (flags : Flags) (value second : UInt32) :
    Except EncodeError Text :=
  match pack format opcode flags value second with
  | .ok object => .ok object
  | .error defect => .error (.defect defect)

/-- The low 32 bits of an operand's value. -/
def lowWord (value : Int64) : UInt32 := value.toUInt64.toUInt32

/-- The object bytes of a statement. -/
def encode (inst : Instruction) : Except EncodeError Text :=
  match inst.format with
  | .byte =>
    match Operand.byteConstant? inst.operand with
    | some data => .ok data
    | none => .error (.defect (.uncheckedByte inst.operand))
  | .two =>
    match inst.target.kind with
    | .register => layOut .two inst.opcode {} (lowWord inst.target.value) 0
    | .registerPair =>
      layOut .two inst.opcode {} (lowWord inst.target.value) (lowWord inst.target.second)
    | _ => .error (.defect (.needsRegisters inst.mnemonic))
  | format =>
    if inst.target.kind = .unresolved then .error (.defect (.unresolved inst.operand))
    else match inst.displacement with
      | .error cause => .error (.fault cause)
      | .ok field =>
        layOut format inst.opcode (withOrigin inst.addressingFlags field.origin) field.value 0

end Instruction

end SicXe
