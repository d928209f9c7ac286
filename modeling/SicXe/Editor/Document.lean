import SicXe.Assembly
import SicXe.Json.Basic

/-!
# Documents and diagnostics

A document is a text that an editor has open, together with the assembly of that text. Every fault
of the assembly becomes a diagnostic that spans the field it is about. Lines and characters are
counted from 0, characters in bytes.
-/

namespace SicXe

namespace Editor

/-- A place in a document. -/
structure Place where
  line : Int := 0
  character : Int := 0
  deriving DecidableEq, Repr

/-- A span of a document, its end not included. -/
structure Span where
  start : Place := {}
  stop : Place := {}
  deriving DecidableEq, Repr

/-- A message about a span of a document. -/
structure Diagnostic where
  span : Span := {}
  message : Text
  deriving DecidableEq, Repr

/-- A document that an editor has open. -/
structure Document where
  uri : Text := []
  version : Int := 0
  text : Text := []
  /-- The assembly of the text, unless it could not be read. -/
  assembly : Option Assembly := none

/-- The name under which diagnostics are reported. -/
def serverName : Text := "sicasm"

/-! ## As JSON -/

/-- A place as JSON. -/
def Place.toJson (place : Place) : Json :=
  Json.record [("line", .int place.line), ("character", .int place.character)]

/-- A span as JSON. -/
def Span.toJson (span : Span) : Json :=
  Json.record [("start", span.start.toJson), ("end", span.stop.toJson)]

/-- A diagnostic as JSON. All diagnostics are errors. -/
def Diagnostic.toJson (diagnostic : Diagnostic) : Json :=
  Json.record [("range", diagnostic.span.toJson), ("severity", .nat 1),
    ("source", .string serverName), ("message", .string diagnostic.message)]

/-! ## Diagnostics -/

/-- Whether a byte separates the fields of a line: a blank, a tab or a carriage return. -/
def isFieldBreak (b : UInt8) : Bool :=
  b == Text.blank || b == Text.tab || b == Text.carriageReturn

/-- The end of the field that begins at a column, or the end of the line if the column is beyond. -/
def fieldEnd (line : Text) (start : Nat) : Nat :=
  if line.length ≤ start then line.length
  else start + ((line.drop start).takeWhile (!isFieldBreak ·)).length

/-- The item at a place counted from 0; a negative place has none. -/
def itemAt? {α : Type} (items : List α) (index : Int) : Option α :=
  if index < 0 then none else items[index.toNat]?

/-- The span of a fault in a text given by its lines. -/
def faultSpan (lines : List Text) (position : Position) : Span :=
  let line := position.line - 1
  let start := position.column - 1
  let stop : Int :=
    match itemAt? lines line with
    | some text => fieldEnd text start.toNat
    | none => start
  ⟨⟨line, start⟩, ⟨line, stop⟩⟩

/-- The first line of a fault's message without its position. -/
def faultMessage (fault : Fault) : Text :=
  let message := fault.message.firstLine
  (Text.after? ": " message).getD message

/-- The diagnostics of an assembly, one for each fault. -/
def diagnosticsOf (text : Text) (assembly : Assembly) : List Diagnostic :=
  let lines := text.split Text.lineFeed
  assembly.faults.map fun fault =>
    { span := faultSpan lines fault.position, message := faultMessage fault }

/-- The document with its text assembled for a machine, and its diagnostics. A text that cannot be
read has one diagnostic, at its beginning. -/
def Document.assemble (mode : Mode) (document : Document) : Document × List Diagnostic :=
  match Assembly.ofInput mode { text := document.text } with
  | .ok assembly =>
    ({ document with assembly := some assembly }, diagnosticsOf document.text assembly)
  | .error error => ({ document with assembly := none }, [{ message := error.message }])

end Editor

end SicXe
