import SicXe.Instruction
import SicXe.Program.Record

/-!
# Object code

The second run goes through the records of a program and encodes instructions and data with the
labels that the layout found. Along the way it follows the base register and finds the entry point.
Faults are added to the records they concern.
-/

namespace SicXe

/-- A note on what the second run did with a record. -/
inductive Note where
  /-- The base register was announced. -/
  | base (address base : UInt32)
  /-- A statement was encoded. -/
  | encoded (address : UInt32) (statement : Statement) (format : Format) (flags : Flags)
      (object : Text)
  deriving DecidableEq, Repr

/-- The second run after some records. -/
structure ObjectCode where
  name : Text
  start : UInt32
  symbols : SymbolTable
  /-- The content of the base register. -/
  base : UInt32 := 0
  entry : UInt32
  records : Array Record := #[]
  faults : Array Fault := #[]
  notes : Array Note := #[]
  /-- Statements that were encoded with an operand that does not suit them. -/
  defects : Array Defect := #[]

namespace ObjectCode

/-- The address that the operand of a base or end directive gives: a label, or else a decimal
number that is not negative. -/
def address (symbols : SymbolTable) (operand : Text) : Except Cause UInt32 :=
  match symbols.get? operand with
  | some address => .ok address
  | none =>
    match (Numeral.decodeCount operand).toOption.filter (0 ≤ ·) with
    | some value => .ok (Instruction.lowWord value)
    | none =>
      if operand.isSymbolName then .error (.unknownLabel operand)
      else .error (.invalidOperand operand .expectedAddress)

/-- The record as it stands. -/
def keep (code : ObjectCode) (record : Record) : ObjectCode :=
  { code with records := code.records.push record }

/-- The record with a fault in its operand. -/
def fail (code : ObjectCode) (record : Record) (cause : Cause) : ObjectCode :=
  let fault := record.faultAt record.statement.operand cause
  { code with
    records := code.records.push { record with faults := record.faults ++ [fault] }
    faults := code.faults.push fault }

/-- The instruction that a record stands for once its operand is resolved. -/
def instruction (record : Record) (target : Operand) (format : Format) (opcode : UInt8)
    (base : UInt32) : Instruction :=
  { mnemonic := record.statement.mnemonic
    opcode
    operand := record.statement.operand
    target
    format
    source := record.address
    base }

/-- The record with its object code in the given format. -/
def encode (code : ObjectCode) (record : Record) (format : Format) (opcode : UInt8) : ObjectCode :=
  let resolution := Operand.resolve record.statement.operand format code.symbols
  match resolution.failure with
  | some cause => code.fail record cause
  | none =>
    let inst := instruction record resolution.operand format opcode code.base
    match inst.encode with
    | .error (.fault cause) => code.fail record cause
    | .error (.defect defect) => { code.keep record with defects := code.defects.push defect }
    | .ok object =>
      { code.keep { record with object } with
        notes := code.notes.push
          (.encoded record.address record.statement format inst.addressingFlags object) }

/-- A base directive: the base register changes if the operand gives an address. -/
def setBase (code : ObjectCode) (record : Record) : ObjectCode :=
  match address code.symbols record.statement.operand with
  | .error cause => code.fail record cause
  | .ok base => { code.keep record with base, notes := code.notes.push (.base record.address base) }

/-- An end directive: the program begins where the operand says. The program's own name stands for
its start. -/
def setEntry (code : ObjectCode) (record : Record) : ObjectCode :=
  let operand := record.statement.operand
  if operand = [] then code.keep record
  else if operand = code.name then { code.keep record with entry := code.start }
  else match address code.symbols operand with
    | .error cause => code.fail record cause
    | .ok entry => { code.keep record with entry }

/-- One record. -/
def pushRecord (code : ObjectCode) (record : Record) : ObjectCode :=
  match record.content with
  | .directive .base => code.setBase record
  | .directive .finish => code.setEntry record
  | .directive .byte => code.encode record .byte 0
  | .directive .word => code.encode record .word 0
  | .instruction opcode => code.encode record opcode.format opcode.code
  | _ => code.keep record

/-- The object code of a program with the given labels. -/
def ofProgram (program : Program) (symbols : SymbolTable) : ObjectCode :=
  program.records.foldl pushRecord
    { name := program.name, start := program.start, symbols, entry := program.entry }

/-- The program with its object code and entry point. -/
def complete (code : ObjectCode) (program : Program) : Program :=
  { program with entry := code.entry, records := code.records.toList }

end ObjectCode

end SicXe
