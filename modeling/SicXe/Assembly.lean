import SicXe.Program.Layout
import SicXe.Program.ObjectCode
import SicXe.Text.Lines

/-!
# Assemblies

An assembly is the outcome of both runs over a source. The second run takes place only when the
layout found no fault.
-/

namespace SicXe

/-- A program assembled for a machine. -/
structure Assembly where
  mode : Mode
  program : Program
  symbols : SymbolTable
  faults : List Fault
  deriving DecidableEq, Repr

/-- Why a source was not assembled. -/
inductive SourceError where
  /-- The source could not be read to its end. -/
  | reading (error : ReadError)
  /-- The source could not be set back to its beginning. -/
  | rewinding (message : Text)
  deriving DecidableEq, Repr

/-- The wording of a source's failure. -/
def SourceError.message : SourceError → Text
  | .reading error => Text.ofString "reading source: " ++ error.message
  | .rewinding message => Text.ofString "rewinding source: " ++ message

namespace Assembly

/-- The assembly of lines. Its labels go into a symbol table that may hold others, as those of its
layout do. -/
def ofLines (mode : Mode) (lines : List Text) (symbols : SymbolTable := .empty) : Assembly :=
  let layout := Layout.ofLines mode lines symbols
  let program := layout.program
  if program.errorFree then
    let code := ObjectCode.ofProgram program layout.symbols
    { mode
      program := code.complete program
      symbols := layout.symbols
      faults := layout.faults.toList ++ code.faults.toList }
  else { mode, program, symbols := layout.symbols, faults := layout.faults.toList }

/-- The assembly of a source, unless it cannot be read to its end. -/
def ofInput (mode : Mode) (input : Input) : Except SourceError Assembly :=
  let { lines, failure } := input.lines
  match failure with
  | some error => .error (.reading error)
  | none => .ok (ofLines mode lines)

end Assembly

end SicXe
