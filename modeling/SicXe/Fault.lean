import SicXe.Numeral.Digits

/-!
# Faults of a program

A fault is a position in the source and a cause. The wording of every cause stands here; a message
is the position followed by the cause, and may go on over further lines.
-/

namespace SicXe

/-- A place in a source, line and column counted from 1. -/
structure Position where
  line : Int
  column : Int
  deriving DecidableEq, Repr

/-- What is wrong with an operand. -/
inductive OperandFlaw where
  | takesNone
  | invalidConstant
  | needsExtendedMachine
  | missing
  | literalTooLarge
  | misplacedRegister
  | unreadable
  | expectedRegisters
  | unknownRegister (name : Text)
  | countOutOfRange
  | startNotHexadecimal
  | malformedConstant
  | expectedByte
  | byteTooLarge
  | missingValue
  | constantTooLong
  | wordTooLarge
  | expectedWord
  | reservationNotCount
  | reservationTooLarge
  | expectedAddress
  deriving DecidableEq, Repr

/-- The wording of an operand's flaw. -/
def OperandFlaw.reason : OperandFlaw → Text
  | .takesNone => "instruction takes no operand"
  | .invalidConstant => "Invalid constant"
  | .needsExtendedMachine => "immediate and indirect addressing need SIC/XE"
  | .missing => "missing operand value"
  | .literalTooLarge => "literal does not fit the instruction"
  | .misplacedRegister => "register operand needs a format 2 instruction"
  | .unreadable => "not a label, register or literal"
  | .expectedRegisters => "expected one or two registers"
  | .unknownRegister name => Text.ofString "unknown register '" ++ name ++ Text.ofString "'"
  | .countOutOfRange => "count out of range"
  | .startNotHexadecimal => "starting address must be a hexadecimal address"
  | .malformedConstant => "malformed constant"
  | .expectedByte => "expected C'..', X'..' or a number"
  | .byteTooLarge => "value does not fit in a byte"
  | .missingValue => "missing value"
  | .constantTooLong => "constant does not fit in a word"
  | .wordTooLarge => "value does not fit in a word"
  | .expectedWord => "expected a number, constant or label"
  | .reservationNotCount => "reservation size must be a count"
  | .reservationTooLarge => "reservation exceeds the address space"
  | .expectedAddress => "expected a label or address"

/-- Why a statement is faulty. -/
inductive Cause where
  /-- The label is defined by an earlier statement. -/
  | duplicateLabel (label : Text)
  /-- The mnemonic is neither an instruction nor a directive. -/
  | unknownMnemonic (mnemonic : Text)
  /-- The line has more fields than it may. -/
  | tooManyFields (limit count : Int)
  /-- The operand cannot be used. -/
  | invalidOperand (operand : Text) (flaw : OperandFlaw)
  /-- The directive may not stand here. -/
  | misplacedDirective (mnemonic : Text)
  /-- The program ends beyond the machine's memory. -/
  | oversized (limit size : UInt32)
  /-- The operand names a label that is not defined. -/
  | unknownLabel (label : Text)
  /-- The target is out of reach, at the given distance from the base. -/
  | outOfReach (distance : Int64)
  deriving DecidableEq, Repr

/-- The wording for an operand that cannot be used, for the given reason. -/
def invalidOperandText (operand reason : Text) : Text :=
  Text.ofString "Invalid operand '" ++ operand ++ Text.ofString "': " ++ reason

/-- The wording of a cause. -/
def Cause.message : Cause → Text
  | .duplicateLabel label => Text.ofString "Duplicate symbol '" ++ label ++ Text.ofString "'"
  | .unknownMnemonic mnemonic => Text.ofString "Invalid opcode '" ++ mnemonic ++ Text.ofString "'"
  | .tooManyFields limit count =>
    Text.ofString "Malformed line\n\twant:at most " ++ Numeral.signedDecimal limit ++
      Text.ofString " fields\n\thave:" ++ Numeral.signedDecimal count
  | .invalidOperand operand flaw => invalidOperandText operand flaw.reason
  | .misplacedDirective mnemonic =>
    Text.ofString "Misplaced directive '" ++ mnemonic ++ Text.ofString "'"
  | .oversized limit size =>
    Text.ofString "Program exceeds address space\n\twant:<= " ++ Numeral.prefixedHex limit.toNat ++
      Text.ofString "\n\thave:" ++ Numeral.prefixedHex size.toNat
  | .unknownLabel label => Text.ofString "Unknown label '" ++ label ++ Text.ofString "'"
  | .outOfReach distance =>
    Text.ofString "Target out of range for PC or base relative addressing" ++
      Text.ofString "\n\twant:0..4095 from base\n\thave:" ++ Numeral.signedDecimal distance.toInt

/-- A cause at a place of the source. -/
structure Fault where
  position : Position
  cause : Cause
  deriving DecidableEq, Repr

/-- The wording of a position in front of a message. -/
def Position.text (p : Position) : Text :=
  Numeral.paddedDecimal 2 p.line ++ 0x3A :: Numeral.paddedDecimal 2 p.column ++ [0x3A, 0x20]

/-- The wording of a fault: its position, then its cause. -/
def Fault.message (fault : Fault) : Text := fault.position.text ++ fault.cause.message

end SicXe
