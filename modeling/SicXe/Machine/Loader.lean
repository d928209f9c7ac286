import SicXe.Constant
import SicXe.Machine.Basic
import SicXe.Numeral.Decode
import SicXe.Text.Lines

/-!
# Loading object programs

The loader reads an object program line by line: one header record, text records inside the range
that the header announces, and an end record, behind which nothing is read. What was loaded before a
failure stays in memory; the program counter changes only at the end record.
-/

namespace SicXe

/-- What is wrong with a record of an object program. -/
inductive RecordFlaw where
  | expectedHeader
  | duplicateHeader
  | malformedHeader
  | malformedStart
  | malformedLength
  | malformedText
  | malformedTextAddress
  | malformedTextLength
  | lengthMismatch
  | malformedEnd
  | malformedEntry
  | unknownKind (letter : UInt8)
  | missingEnd
  deriving DecidableEq, Repr

/-- The wording of a record's flaw. -/
def RecordFlaw.reason : RecordFlaw → Text
  | .expectedHeader => "expected header record"
  | .duplicateHeader => "duplicate header record"
  | .malformedHeader => "malformed header record"
  | .malformedStart => "malformed start address"
  | .malformedLength => "malformed program length"
  | .malformedText => "malformed text record"
  | .malformedTextAddress => "malformed text address"
  | .malformedTextLength => "malformed text length"
  | .lengthMismatch => "text length does not match its data"
  | .malformedEnd => "malformed end record"
  | .malformedEntry => "malformed entry point"
  | .unknownKind letter => Text.ofString "unknown record type " ++ Text.quotedByte letter
  | .missingEnd => "missing end record"

/-- Why an object program was not loaded. -/
inductive LoadError where
  /-- A record has a flaw; lines are counted from 1. -/
  | record (line : Int) (flaw : RecordFlaw)
  /-- A record lies beyond the limit. -/
  | address (line : Int) (limit reached : UInt32)
  /-- The object program could not be read. -/
  | reading (error : ReadError)
  deriving DecidableEq, Repr

/-- The wording for a record that has a flaw, for the given reason. -/
def invalidRecordText (line : Int) (reason : Text) : Text :=
  Numeral.paddedDecimal 2 line ++ Text.ofString ": Invalid object record: " ++ reason

/-- The wording of a failure to load. -/
def LoadError.message : LoadError → Text
  | .record line flaw => invalidRecordText line flaw.reason
  | .address line limit reached =>
    Numeral.paddedDecimal 2 line ++ Text.ofString ": Record outside of memory\n\twant:< " ++
      Numeral.prefixedHex limit.toNat ++ Text.ofString "\n\thave:" ++
      Numeral.prefixedHex reached.toNat
  | .reading error => error.message

namespace Machine

/-- The bytes of a record from one column up to another, counted from 0. -/
def columns (record : Text) (low high : Nat) : Text := (record.drop low).take (high - low)

/-- The header that a record announces; its program has to end in memory. -/
def readHeader (machine : Machine) (line : Nat) (record : Text) : Except LoadError Header :=
  if record.length ≠ 19 then .error (.record line .malformedHeader)
  else match Numeral.decodeAddress (columns record 7 13) with
    | .error _ => .error (.record line .malformedStart)
    | .ok start =>
      match Numeral.decodeAddress (columns record 13 19) with
      | .error _ => .error (.record line .malformedLength)
      | .ok length =>
        if machine.size < start + length then
          .error (.address line machine.size (start + length))
        else .ok { name := (columns record 1 7 : Text).trimEnd (· == Text.blank), start, length }

/-- The most bytes of a text record. -/
def maxText : UInt32 := 30

/-- Address and bytes of a text record, which lies in the range that the header announces. -/
def readText (header : Header) (line : Nat) (record : Text) : Except LoadError (UInt32 × Text) :=
  if record.length < 9 then .error (.record line .malformedText)
  else match Numeral.decodeAddress (columns record 1 7) with
    | .error _ => .error (.record line .malformedTextAddress)
    | .ok address =>
      match Numeral.decodeAddress (columns record 7 9) with
      | .error _ => .error (.record line .malformedTextLength)
      | .ok size =>
        if maxText < size then .error (.record line .malformedTextLength)
        else
          let digits := record.drop 9
          match Constant.content? .hexadecimal digits with
          | none => .error (.record line .lengthMismatch)
          | some data =>
            let stop := header.start + header.length
            if digits.length ≠ 2 * size.toNat then .error (.record line .lengthMismatch)
            else if address < header.start ∨ stop < address + size then
              .error (.address line stop (address + size))
            else .ok (address, data)

/-- The entry point of an end record, which is an address in memory. -/
def readEnd (machine : Machine) (line : Nat) (record : Text) : Except LoadError UInt32 :=
  if record.length ≠ 7 then .error (.record line .malformedEnd)
  else match Numeral.decodeAddress (columns record 1 7) with
    | .error _ => .error (.record line .malformedEntry)
    | .ok entry =>
      if entry < machine.size then .ok entry else .error (.address line machine.size entry)

/-- The lines from the given number on; `headed` tells whether the header was read. Without an end
record, the failure of the reading decides, if there was one. -/
def loadLines (machine : Machine) (headed : Bool) (line : Nat) (failure : Option ReadError) :
    List Text → Machine × Option LoadError
  | [] =>
    match failure with
    | some error => (machine, some (.reading error))
    | none => (machine, some (.record (line - 1) .missingEnd))
  | [] :: lines => loadLines machine headed (line + 1) failure lines
  | record@(letter :: _) :: lines =>
    if letter = 0x48 then
      if headed then (machine, some (.record line .duplicateHeader))
      else match machine.readHeader line record with
        | .error error => (machine, some error)
        | .ok header => loadLines { machine with header } true (line + 1) failure lines
    else if !headed then (machine, some (.record line .expectedHeader))
    else if letter = 0x54 then
      match readText machine.header line record with
      | .error error => (machine, some error)
      | .ok (address, data) =>
        loadLines { machine with memory := write machine.memory address.toNat data } headed
          (line + 1) failure lines
    else if letter = 0x45 then
      match machine.readEnd line record with
      | .error error => (machine, some error)
      | .ok entry => ({ machine with counter := entry }, none)
    else (machine, some (.record line (.unknownKind letter)))

/-- The machine after loading an object program, and the failure that ended it. -/
def load (machine : Machine) (input : Input) : Machine × Option LoadError :=
  let { lines, failure } := input.lines
  machine.loadLines false 1 failure lines

end Machine

end SicXe
