import SicXe.Operand
import SicXe.Program.Record

/-!
# Layout

The layout of a program goes through its lines once. It gives each statement an address and a width,
collects the labels, and reports every fault that can be seen without knowing the labels. The
counter of addresses has 32 bits; a program that leaves the machine's memory is reported once.
-/

namespace SicXe

/-! ## Widths of data -/

/-- A width together with the flaw of the operand that gave it, if it has one. -/
structure Extent where
  width : UInt32
  flaw : Option OperandFlaw := none
  deriving DecidableEq, Repr

namespace Extent

/-- The extent of a byte directive: the bytes of its constant, or one byte for a number. -/
def ofByteOperand (operand : Text) : Extent :=
  match Constant.split? operand with
  | some _ =>
    match Constant.decode? operand with
    | some data => { width := UInt32.ofNat data.length }
    | none => { width := 0, flaw := some .malformedConstant }
  | none =>
    match Numeral.decodeCount operand with
    | .error _ => { width := 0, flaw := some .expectedByte }
    | .ok value =>
      if value < -128 ∨ 255 < value then { width := 1, flaw := some .byteTooLarge }
      else { width := 1 }

/-- The flaw of a word directive's operand that can be seen without knowing the labels. -/
def wordFlaw? (operand : Text) : Option OperandFlaw :=
  if operand = [] then some .missingValue
  else match Constant.split? operand with
    | some _ =>
      match Constant.decode? operand with
      | some data => if data.length ≤ 3 then none else some .constantTooLong
      | none => some .malformedConstant
    | none =>
      match Numeral.decodeCount operand with
      | .ok value =>
        if value < -0x800000 ∨ 0x1000000 ≤ value then some .wordTooLarge else none
      | .error _ => if operand.isSymbolName then none else some .expectedWord

/-- The extent of a word directive: always three bytes. -/
def ofWordOperand (operand : Text) : Extent := { width := 3, flaw := wordFlaw? operand }

/-- The extent of storage reserved in units of the given number of bytes. It may be as large as the
memory. -/
def ofReservation (memory : UInt32) (unit : Nat) (operand : Text) : Extent :=
  match Numeral.decodeCount operand with
  | .error _ => { width := 0, flaw := some .reservationNotCount }
  | .ok count =>
    if count < 0 then { width := 0, flaw := some .reservationNotCount }
    else
      let size := count.toInt.toNat * unit
      if memory.toNat < size then { width := 0, flaw := some .reservationTooLarge }
      else { width := UInt32.ofNat size }

end Extent

/-! ## The layout under way -/

/-- The layout after some lines. -/
structure Layout where
  mode : Mode
  name : Text := []
  start : UInt32 := 0
  /-- The address of the next statement. -/
  counter : UInt32 := 0
  entryLabel : Text := []
  /-- Whether a line that is no comment was met. -/
  started : Bool := false
  /-- Whether the program was reported as too large. -/
  oversized : Bool := false
  /-- Whether the end of the program was met. -/
  finished : Bool := false
  symbols : SymbolTable := .empty
  records : Array Record := #[]
  faults : Array Fault := #[]

namespace Layout

/-- The layout with one more record, whose faults are reported. -/
def push (layout : Layout) (record : Record) : Layout :=
  { layout with
    records := layout.records.push record
    faults := layout.faults ++ record.faults.toArray }

/-- The record for the next line, still without content. -/
def nextRecord (layout : Layout) (source : Text) : Record :=
  { line := layout.records.size + 1, source, content := .comment, address := layout.counter }

/-- The start address that an operand gives: a hexadecimal address in memory. -/
def startAddress? (mode : Mode) (operand : Text) : Option UInt32 :=
  match Numeral.decodeAddress operand with
  | .ok start => if start < mode.memorySize then some start else none
  | .error _ => none

/-- A directive that starts the program. Only the first statement may do so. An operand that gives
no start address counts as zero. -/
def pushStart (layout : Layout) (record : Record) : Layout :=
  let record := { record with content := .directive .start }
  let { label, mnemonic, operand } := record.statement
  if layout.started then
    layout.push { record with faults := [record.faultAt mnemonic (.misplacedDirective mnemonic)] }
  else
    let layout := { layout with started := true, name := label }
    match startAddress? layout.mode operand with
    | some start =>
      push { layout with start, counter := start } { record with address := start }
    | none =>
      push { layout with start := 0, counter := 0 }
        { record with
          address := 0
          faults := [record.faultAt operand (.invalidOperand operand .startNotHexadecimal)] }

/-- The content and extent of a statement that takes up storage. -/
def extentOf (mode : Mode) (statement : Statement) : Option Directive → Content × Extent
  | some .byte => (.directive .byte, .ofByteOperand statement.operand)
  | some .word => (.directive .word, .ofWordOperand statement.operand)
  | some .reserveBytes =>
    (.directive .reserveBytes, .ofReservation mode.memorySize 1 statement.operand)
  | some .reserveWords =>
    (.directive .reserveWords, .ofReservation mode.memorySize 3 statement.operand)
  | some directive => (.directive directive, { width := 0 })
  | none =>
    match mode.opcode? statement.mnemonic with
    | some opcode => (.instruction opcode, { width := opcode.format.width })
    | none => (.unknown, { width := 0 })

/-- The fault of a statement by itself: its mnemonic is unknown, or its operand has a flaw. -/
def statementFault? (record : Record) (extent : Extent) : Option Fault :=
  let { mnemonic, operand, .. } := record.statement
  if record.content = .unknown then some (record.faultAt mnemonic (.unknownMnemonic mnemonic))
  else extent.flaw.map fun flaw => record.faultAt operand (.invalidOperand operand flaw)

/-- The symbols with the label of a statement, and whether that label was defined before. An empty
label defines nothing. -/
def defineLabel (symbols : SymbolTable) (label : Text) (address : UInt32) : SymbolTable × Bool :=
  if label = [] then (symbols, false)
  else match symbols.define? label address with
    | some symbols => (symbols, false)
    | none => (symbols, true)

/-- A statement that may have a label and takes up storage. -/
def pushStorage (layout : Layout) (record : Record) (directive : Option Directive) : Layout :=
  let label := record.statement.label
  let (symbols, duplicate) := defineLabel layout.symbols label layout.counter
  let (content, extent) := extentOf layout.mode record.statement directive
  let record := { record with content, width := extent.width }
  let counter := layout.counter + extent.width
  let limit := layout.mode.memorySize
  let exceeds := limit < counter && !layout.oversized
  let labelFault :=
    if duplicate then [record.faultAt label (.duplicateLabel label)] else []
  let sizeFault := if exceeds then [⟨⟨record.line, 1⟩, .oversized limit counter⟩] else []
  push { layout with symbols, counter, oversized := layout.oversized || exceeds }
    { record with faults := labelFault ++ (statementFault? record extent).toList ++ sizeFault }

/-- A statement. -/
def pushStatement (layout : Layout) (record : Record) : Layout :=
  match Directive.ofKeyword? record.statement.mnemonic with
  | some .start => layout.pushStart record
  | some .finish =>
    push { layout with started := true, finished := true, entryLabel := record.statement.operand }
      { record with content := .directive .finish }
  | some .base =>
    push { layout with started := true } { record with content := .directive .base }
  | directive => pushStorage { layout with started := true } record directive

/-- One line. -/
def pushLine (layout : Layout) (source : Text) : Layout :=
  let record := layout.nextRecord source
  if source.isComment then layout.push record
  else
    let fields := source.fields
    let record := { record with statement := .ofFields fields }
    if fields.length ≤ Statement.maxFields then layout.pushStatement record
    else
      push { layout with started := true }
        { record with
          content := .overfull
          faults := [⟨⟨record.line, 1⟩, .tooManyFields Statement.maxFields fields.length⟩] }

/-- Lines up to the end of the program. -/
def pushLines (layout : Layout) : List Text → Layout
  | [] => layout
  | line :: lines => if layout.finished then layout else (layout.pushLine line).pushLines lines

/-- The layout of a program for a machine. Its labels go into a symbol table that may hold others,
which are taken out first. -/
def ofLines (mode : Mode) (lines : List Text) (symbols : SymbolTable := .empty) : Layout :=
  pushLines { mode, symbols := symbols.cleared } lines

/-- The program as it is laid out. It begins at its start until its end names another place. -/
def program (layout : Layout) : Program :=
  { name := layout.name
    start := layout.start
    length := layout.counter - layout.start
    entry := layout.start
    entryLabel := layout.entryLabel
    records := layout.records.toList
    errorFree := layout.faults.isEmpty }

end Layout

end SicXe
