import SicXe.Program.Trace
import SicXe.Report.Listing

/-!
# Sessions

A session assembles one source again and again, each time from its beginning, and keeps the outcome
of the last run. All runs fill the same symbol table. Between runs the text, the machine and the
device behind the text may change.
-/

namespace SicXe

/-- A source with its device, a machine, and what the last run left. -/
structure Session where
  text : Text
  mode : Mode
  /-- The failure of every attempt to go back to the beginning, if it fails. -/
  rewindFailure : Option Text := none
  /-- The failure of every attempt to read, if it fails. -/
  readFailure : Option Text := none
  /-- The labels of the runs so far, as far as no later run took them out. -/
  symbols : SymbolTable := .empty
  assembly : Option Assembly := none
  listing : Option Text := none
  /-- The object listing, if the layout found no fault. -/
  objectListing : Option Text := none

/-- The outcome of a run: the assembly and its listings. -/
structure Run where
  assembly : Assembly
  listing : Text
  objectListing : Option Text

namespace Session

/-- What reading the source gives. A device that fails delivers nothing. -/
def input (session : Session) : Input :=
  match session.readFailure with
  | none => { text := session.text }
  | some message => { text := [], failure := some (.device message) }

/-- The lines of the source, read from its beginning. -/
def lines (session : Session) : Except SourceError (List Text) :=
  match session.rewindFailure with
  | some message => .error (.rewinding message)
  | none =>
    let { lines, failure } := session.input.lines
    match failure with
    | some error => .error (.reading error)
    | none => .ok lines

/-- The session without the outcome of the last run. Its labels stay. -/
def forget (session : Session) : Session :=
  { session with assembly := none, listing := none, objectListing := none }

/-- The session with the outcome of a run over lines. -/
def fill (session : Session) (lines : List Text) : Session :=
  let assembly := Assembly.ofLines session.mode lines session.symbols
  let report := assembly.report
  { session with
    symbols := assembly.symbols
    assembly := some assembly
    listing := some report.listing
    objectListing := if assembly.program.errorFree then report.objectListing.toOption else none }

/-- A run over the source. A failed run leaves no outcome. -/
def assemble (session : Session) : Session × Option SourceError :=
  let session := session.forget
  match session.lines with
  | .error error => (session, some error)
  | .ok lines => (session.fill lines, none)

/-- What a run over the source traces. A failed run traces nothing. -/
def trace (session : Session) : Text :=
  match session.lines with
  | .error _ => []
  | .ok lines => Trace.ofLines session.mode lines session.symbols

/-- Whether there was a run whose layout found no fault. -/
def isErrorFree (session : Session) : Bool := session.assembly.any (·.program.errorFree)

/-- The outcome of the last run, unless it failed. -/
def last (session : Session) : Option Run := do
  let assembly ← session.assembly
  let listing ← session.listing
  return { assembly, listing, objectListing := session.objectListing }

/-! ## Steps -/

/-- What can be done with a session. -/
inductive Action where
  | assemble
  | setMode (mode : Mode)
  | setText (text : Text)
  /-- From now on going back to the beginning fails, or it does no longer. -/
  | setRewindFailure (failure : Option Text)
  /-- From now on reading fails, or it does no longer. -/
  | setReadFailure (failure : Option Text)
  deriving DecidableEq, Repr

/-- The session after a step. -/
def perform (session : Session) : Action → Session
  | .assemble => session.assemble.1
  | .setMode mode => { session with mode }
  | .setText text => { session with text }
  | .setRewindFailure failure => { session with rewindFailure := failure }
  | .setReadFailure failure => { session with readFailure := failure }

end Session

end SicXe
