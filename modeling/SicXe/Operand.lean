import SicXe.Constant
import SicXe.Fault
import SicXe.Isa.Opcode
import SicXe.Numeral.Decode
import SicXe.Statement
import SicXe.Symbol.Table
import SicXe.Word

/-!
# Operands

An operand is a text until it is resolved for a format: to an address, a literal or registers, with
the way of addressing that its marks ask for. `Operand.resolve` does so against a symbol table. A
failed resolution still tells the addressing that was read before the failure.
-/

namespace SicXe

/-- The ways of addressing. -/
inductive Addressing where
  /-- The field leads to the operand's value in memory, if possible relative to the statement. -/
  | simple
  /-- The field is the operand's value. -/
  | immediate
  /-- The field leads to the address of the operand's value. -/
  | indirect
  /-- As simple, but the field is always the address itself. -/
  | direct
  deriving DecidableEq, Repr

/-- What an operand turned out to be. -/
inductive Operand.Kind where
  | none
  | symbol
  | literal
  | register
  | registerPair
  | unresolved
  deriving DecidableEq, Repr

/-- A resolved operand. The value is the address of a symbol, the value of a literal or the number
of the first register; `second` is the number of the second register or the shift count less one. -/
structure Operand where
  kind : Operand.Kind := .none
  value : Int64 := 0
  second : Int64 := 0
  addressing : Addressing := .simple
  indexed : Bool := false
  text : Text := []
  deriving DecidableEq, Repr

/-- The outcome of resolving an operand. -/
structure Resolution where
  operand : Operand
  failure : Option Cause := none
  deriving DecidableEq, Repr

namespace Operand

/-- The mark of an immediate operand. -/
def immediateMarker : UInt8 := 0x23

/-- The mark of an indirect operand. -/
def indirectMarker : UInt8 := 0x40

/-- The ending of an indexed operand. -/
def indexEnding : Text := ",X"

/-- A failed resolution because of a flaw in the operand. -/
def reject (operand : Operand) (flaw : OperandFlaw) : Resolution :=
  { operand := { operand with kind := .unresolved }
    failure := some (.invalidOperand operand.text flaw) }

/-- The operand as a reference to an address. -/
def toSymbol (operand : Operand) (address : UInt32) : Resolution :=
  { operand := { operand with kind := .symbol, value := Int64.ofInt address.toNat } }

/-- The operand as a literal. -/
def toLiteral (operand : Operand) (value : Int64) : Resolution :=
  { operand := { operand with kind := .literal, value } }

/-- The operand as a reference to a label. -/
def resolveLabel (operand : Operand) (name : Text) (symbols : SymbolTable) : Resolution :=
  match symbols.get? name with
  | some address => operand.toSymbol address
  | none =>
    if name.isSymbolName then
      { operand := { operand with kind := .unresolved }, failure := some (.unknownLabel name) }
    else operand.reject .unreadable

/-! ## Registers -/

/-- One part of a register operand: a register, or a count from `low` to `high`, which is stored
less `low`. -/
def registerPart (counts : Option (Int64 × Int64)) (part : Text) : Except OperandFlaw Int64 :=
  match register? part with
  | some number => .ok (Int64.ofInt number.toNat)
  | none =>
    match Numeral.decodeCount part with
    | .error _ => .error (.unknownRegister part)
    | .ok n =>
      match counts with
      | some (low, high) => if low ≤ n ∧ n ≤ high then .ok (n - low) else .error .countOutOfRange
      | none => .error .countOutOfRange

/-- The operand as one or two registers. A lone count is an interrupt number from 0 to 15; a count
behind a register is a shift count from 1 to 16. -/
def resolveRegisters (operand : Operand) : Resolution :=
  match operand.text, operand.text.split Text.comma with
  | [], _ => operand.reject .expectedRegisters
  | _, [part] =>
    match registerPart (some (0, 15)) part with
    | .error flaw => operand.reject flaw
    | .ok value => { operand := { operand with kind := .register, value } }
  | _, [first, last] =>
    match registerPart none first with
    | .error flaw => operand.reject flaw
    | .ok value =>
      match registerPart (some (1, 16)) last with
      | .error flaw => operand.reject flaw
      | .ok second => { operand := { operand with kind := .registerPair, value, second } }
  | _, _ => operand.reject .expectedRegisters

/-! ## Data -/

/-- The bytes that the operand of a byte directive stands for: a constant, or a number that fits in
a byte with or without a sign. -/
def byteConstant? (text : Text) : Option Text :=
  match Constant.split? text with
  | some _ => Constant.decode? text
  | none =>
    match Numeral.decodeCount text with
    | .ok value =>
      if value < -128 ∨ 255 < value then none else some [value.toUInt64.toUInt8]
    | .error _ => none

/-- The value that the operand of a word directive stands for: a constant of at most three bytes,
or a number. -/
def wordConstant? (text : Text) : Option Int64 :=
  match Constant.split? text with
  | some _ =>
    match Constant.decode? text with
    | some data => if data.length ≤ 3 then some (Int64.ofInt (Word.ofBytes data).toNat) else none
    | none => none
  | none => (Numeral.decodeCount text).toOption

/-! ## Instructions -/

/-- Whether a literal fits the address field of a format. -/
def literalFits (value : Int64) : Format → Bool
  | .sic => Word.fitsUnsigned value 15
  | .four => decide (-0x80000 ≤ value) && decide (value < 0x100000)
  | _ => decide (-0x800 ≤ value) && decide (value < 0x1000)

/-- The addressing that the mark at the front asks for, and the text behind the mark. -/
def splitMarker : Text → Addressing × Text
  | [] => (.simple, [])
  | b :: t =>
    if b = immediateMarker then (.immediate, t)
    else if b = indirectMarker then (.indirect, t)
    else (.simple, b :: t)

/-- Whether the operand is indexed, and the text in front of the ending that says so. A text that
is nothing but the ending is not indexed. -/
def splitIndex (t : Text) : Bool × Text :=
  if indexEnding.length < t.length ∧ indexEnding.isSuffixOf t then
    (true, t.take (t.length - indexEnding.length))
  else (false, t)

/-- The operand of an instruction that addresses memory, by what stands between its marks: a label,
a literal, or a failure. -/
def resolveName (operand : Operand) (name : Text) (format : Format) (symbols : SymbolTable) :
    Resolution :=
  if name = [] then operand.reject .missing
  else match symbols.get? name with
    | some address => operand.toSymbol address
    | none =>
      match Numeral.decodeCount name with
      | .ok value =>
        if literalFits value format then operand.toLiteral value
        else operand.reject .literalTooLarge
      | .error _ =>
        match register? name with
        | some _ => operand.reject .misplacedRegister
        | none => operand.resolveLabel name symbols

/-- The operand of an instruction that addresses memory. -/
def resolveMemory (text : Text) (format : Format) (symbols : SymbolTable) : Resolution :=
  if text = [] then { operand := { text } }
  else
    let (addressing, unmarked) := splitMarker text
    if addressing ≠ .simple ∧ format = .sic then
      reject { text, addressing } .needsExtendedMachine
    else
      let (indexed, name) := splitIndex unmarked
      resolveName { text, addressing, indexed } name format symbols

/-- The operand of a statement of the given format. -/
def resolve (text : Text) (format : Format) (symbols : SymbolTable) : Resolution :=
  match format with
  | .one => if text = [] then { operand := { text } } else reject { text } .takesNone
  | .two => resolveRegisters { text }
  | .byte =>
    match byteConstant? text with
    | some data => toLiteral { text } (Int64.ofInt (Word.ofBytes data).toNat)
    | none => reject { text } .invalidConstant
  | .word =>
    match wordConstant? text with
    | some value => toLiteral { text } value
    | none => resolveLabel { text } text symbols
  | _ => resolveMemory text format symbols

end Operand

end SicXe
