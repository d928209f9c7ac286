import SicXe.Program.Layout
import SicXe.Program.ObjectCode
import SicXe.Text.Glyph

/-!
# Traces

A trace tells what both runs over a program did, one line for each statement.
-/

namespace SicXe.Trace

/-- The heading of a section. -/
def heading (name : String) : Text :=
  Text.ofString "---- " ++ name ++ Text.ofString " ----\n"

/-- The line for a statement that the layout placed. Comments and lines with too many fields have
none. -/
def placed (record : Record) : Text :=
  match record.content with
  | .comment | .overfull => []
  | _ =>
    Numeral.hex 5 record.address.toNat ++ Text.blank :: record.statement.label.padRight 6 ++
      Text.blank :: record.statement.mnemonic.padRight 6 ++
      Text.blank :: record.statement.operand.padRight 12 ++
      Text.ofString " width:" ++ Numeral.decimal record.width.toNat ++ [Text.lineFeed]

/-- The trace of a layout. -/
def ofLayout (layout : Layout) : Text :=
  heading "Pass one" ++ layout.mode.name ++ Text.ofString ", " ++
    Numeral.decimal layout.mode.opcodes.length ++ Text.ofString " mnemonics\n" ++
    layout.program.records.flatMap placed ++
    Text.ofString "start:" ++ Numeral.hex 5 layout.start.toNat ++
    Text.ofString " length:" ++ Numeral.hex 5 layout.program.length.toNat ++
    Text.ofString " symbols:" ++ Numeral.decimal layout.symbols.size ++
    Text.ofString " errors:" ++ Numeral.decimal layout.faults.size ++ [Text.lineFeed]

/-- The trace of the labels. -/
def ofSymbols (symbols : SymbolTable) : Text :=
  heading "Symbols" ++ symbols.sorted.flatMap fun (label, address) =>
    label.padRight 6 ++ Text.blank :: Numeral.hex 5 address.toNat ++ [Text.lineFeed]

/-- The line for a note. -/
def noted : Note → Text
  | .base address base =>
    Numeral.hex 5 address.toNat ++ Text.ofString " base:" ++ Numeral.hex 5 base.toNat ++
      [Text.lineFeed]
  | .encoded address statement format flags object =>
    Numeral.hex 5 address.toNat ++ Text.blank :: statement.mnemonic.padRight 7 ++
      Text.blank :: statement.operand.padRight 12 ++
      Text.ofString " format:" ++ format.name.padRight 4 ++
      Text.ofString " flags:" ++ flags.text ++
      Text.ofString " object:" ++ Numeral.hexBytes object ++ [Text.lineFeed]

/-- The trace of the second run. -/
def ofNotes (notes : List Note) : Text := heading "Pass two" ++ notes.flatMap noted

/-- The trace of lines: the layout, the labels, and the second run if the layout found no fault. -/
def ofLines (mode : Mode) (lines : List Text) (symbols : SymbolTable := .empty) : Text :=
  let layout := Layout.ofLines mode lines symbols
  let program := layout.program
  let code := ObjectCode.ofProgram program layout.symbols
  ofLayout layout ++ ofSymbols layout.symbols ++
    if program.errorFree then ofNotes code.notes.toList else []

end SicXe.Trace
