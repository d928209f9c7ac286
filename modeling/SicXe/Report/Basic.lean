import SicXe.Assembly

/-!
# Reports

A report is what the written forms of an assembly are made from: the program's name and place, its
messages, and its lines with their object code. `Assembly.report` gives the report of an assembly.
-/

namespace SicXe

/-- A line of a report. -/
structure Report.Line where
  /-- Whether the line is shown as written, without fields. -/
  isComment : Bool
  source : Text
  statement : Statement
  address : UInt32
  width : UInt32
  object : Text
  messages : List Text
  deriving DecidableEq, Repr

/-- What the written forms of an assembly are made from. -/
structure Report where
  name : Text
  start : UInt32
  length : UInt32
  entry : UInt32
  /-- Whether the layout found no fault. -/
  errorFree : Bool
  messages : List Text
  lines : List Report.Line
  deriving DecidableEq, Repr

/-- Why a program has no object listing or object program. -/
inductive Refusal where
  | objectListing
  | objectProgram
  deriving DecidableEq, Repr

/-- The wording of a refusal. -/
def Refusal.message : Refusal → Text
  | .objectListing => "object listing: program has errors"
  | .objectProgram => "program has errors"

/-- The line of a record. -/
def Report.Line.ofRecord (record : Record) : Report.Line :=
  { isComment := record.content = .comment
    source := record.source
    statement := record.statement
    address := record.address
    width := record.width
    object := record.object
    messages := record.faults.map Fault.message }

/-- The report of an assembly. -/
def Assembly.report (assembly : Assembly) : Report :=
  let program := assembly.program
  { name := program.name
    start := program.start
    length := program.length
    entry := program.entry
    errorFree := program.errorFree
    messages := assembly.faults.map Fault.message
    lines := program.records.map Report.Line.ofRecord }

end SicXe
