import SicXe.Command.Run

/-!
# The program

Carries scripts out on the real files, input and output. The service for an editor answers every
message as soon as it is complete.
-/

namespace SicXe.Terminal

/-- The text of a byte array. -/
def toText (bytes : ByteArray) : Text := bytes.data.toList

/-- The bytes of a text. -/
def ofText (t : Text) : ByteArray := ⟨t.toArray⟩

/-- A path as a string, unless it is no UTF-8. -/
def pathString? (path : Text) : Option String := String.fromUTF8? (ofText path)

/-- The system's numbers for a name that leads to no directory. -/
def notDirectoryCodes : List UInt32 := [20, -20]

/-- The reason behind a failure of the system. -/
def fileError : IO.Error → FileError
  | .noFileOrDirectory .. => .notFound
  | .inappropriateType _ code _ => if code ∈ notDirectoryCodes then .notDirectory else .isDirectory
  | .permissionDenied .. => .other (Text.ofString "permission denied")
  | error => .other (Text.ofString (toString error))

/-- Runs an action on the file at a path. -/
def withPath {α : Type} (path : Text) (action : String → IO α) : IO (Except FileError α) :=
  match pathString? path with
  | none => pure (.error .notFound)
  | some name => do
    match ← (action name).toBaseIO with
    | .ok a => pure (.ok a)
    | .error error => pure (.error (fileError error))

/-- Writes a text to a stream. -/
def put (stream : IO.FS.Stream) (t : Text) : IO Unit := do
  stream.write (ofText t)
  stream.flush

/-- Reads a stream to its end, behind what was read of it already. -/
partial def readAll (stream : IO.FS.Stream) (before : ByteArray) : IO ByteArray := do
  let bytes ← stream.read 65536
  if bytes.isEmpty then return before
  readAll stream (before ++ bytes)

/-- Carries a script out. -/
def perform : Script → IO UInt32
  | .exit code => pure (UInt32.ofNat code)
  | .log text next => do
    put (← IO.getStderr) text
    perform next
  | .print text next => do
    put (← IO.getStdout) text
    perform next
  | .readInput next => do
    let bytes ← readAll (← IO.getStdin) .empty
    perform (next (toText bytes))
  | .read path next => do
    let outcome ← withPath path fun name => return toText (← IO.FS.readBinFile name)
    perform (next outcome)
  | .write path content next => do
    match ← withPath path fun name => IO.FS.writeBinFile name (ofText content) with
    | .ok _ => perform (next none)
    | .error error => perform (next (some error))

/-- Serves an editor: answers the messages in what was received, and receives more when no message
is complete. -/
partial def serveEditor (label : Text) (editor : Editor) (stream : ByteStream) : IO UInt32 := do
  if editor.closed then return 0
  match Frame.next? stream with
  | some (message, rest) =>
    let step := editor.receive .standard message
    let { output, log } := step.written label
    put (← IO.getStderr) log
    put (← IO.getStdout) output
    serveEditor label step.editor rest
  | none =>
    let bytes ← (← IO.getStdin).read 65536
    if bytes.isEmpty then return 0
    serveEditor label editor { stream with bytes := stream.bytes ++ toText bytes }

end SicXe.Terminal

/-- Carries out what the arguments ask for. -/
def main (arguments : List String) : IO UInt32 := do
  let stderr ← IO.getStderr
  let console : SicXe.Console :=
    { directory := SicXe.Text.ofString (toString (← IO.currentDir))
      coloredLog := ← stderr.isTty
      coloredOutput := ← (← IO.getStdout).isTty }
  match SicXe.Command.ofArguments? (arguments.map SicXe.Text.ofString) with
  | none =>
    SicXe.Terminal.put stderr SicXe.Command.usage
    return UInt32.ofNat SicXe.Script.misuse
  | some (.editor mode []) =>
    SicXe.Terminal.serveEditor (console.label SicXe.Listen.editorName) { mode } { bytes := [] }
  | some command => SicXe.Terminal.perform (command.script console)
