import SicXe.Command.Console
import SicXe.Report.ObjectProgram
import SicXe.Session
import SicXe.Symbol.File

/-!
# The command that assembles

The command reads a source, writes its listings, and then either reports the faults or writes the
object program and, if asked, the symbol file. Each file is written only after the one before it.
-/

namespace SicXe

/-- What to assemble, and where to put what comes of it. -/
structure AssembleOptions where
  /-- The path of the source; a hyphen stands for the input. -/
  file : Text
  mode : Mode
  /-- The path of the listing; if empty, it is made from that of the source. -/
  listing : Text := []
  /-- The path of the object listing; if empty, it is made from that of the source. -/
  objectListing : Text := []
  /-- The path of the object program; if empty, it is made from that of the source. -/
  object : Text := []
  /-- Whether to write a symbol file. -/
  symbols : Bool := false
  /-- Whether to trace the runs. -/
  verbose : Bool := false
  deriving DecidableEq, Repr

/-- A source that was read. -/
structure Source where
  /-- The name that messages are written behind. -/
  name : Text
  /-- The path that output paths are made from. -/
  path : Text
  /-- The absolute path, empty if there is none. -/
  location : Text
  text : Text
  deriving DecidableEq, Repr

namespace Source

/-- The source at a path. -/
def ofFile (console : Console) (path text : Text) : Source :=
  { name := Path.base path, path, location := Path.absolute console.directory path, text }

/-- The source that the input is. -/
def ofInput (text : Text) : Source :=
  { name := "<stdin>", path := "out", location := [], text }

end Source

namespace AssembleOptions

/-- A path, or if it is empty the source's path with an extension. -/
def pathOr (chosen : Text) (source : Source) (extension : Text) : Text :=
  if chosen = [] then Path.withExtension source.path extension else chosen

/-- Where the listing goes. -/
def listingPath (options : AssembleOptions) (source : Source) : Text :=
  pathOr options.listing source ".lst"

/-- Where the object listing goes. -/
def objectListingPath (options : AssembleOptions) (source : Source) : Text :=
  pathOr options.objectListing source ".olst"

/-- Where the object program goes. -/
def objectPath (options : AssembleOptions) (source : Source) : Text :=
  pathOr options.object source ".obj"

/-- Where the symbol file goes. -/
def symbolPath (options : AssembleOptions) (source : Source) : Text :=
  Path.withExtension (options.objectPath source) ".sicdb"

end AssembleOptions

/-! ## Reporting faults -/

/-- The line of a program with the given number. -/
def Program.sourceLine (program : Program) (line : Int) : Text :=
  ((program.records.find? (fun record => (record.line : Int) = line)).map (·.source)).getD []

/-- The mark under the field that begins after so many bytes of a line: as long as the field, and at
least one column. -/
def underline (line : Text) (start : Nat) : Text :=
  let field := (line.drop start).takeWhile fun b => b != Text.blank && b != Text.tab
  List.replicate start Text.blank ++ 0x5E :: List.replicate (field.length - 1) 0x7E

/-- A fault's message, followed by its line and a mark under the field if the fault lies within the
line. -/
def Fault.report (fault : Fault) (line : Text) (colored : Bool) : Text :=
  let start := fault.position.column - 1
  if start < 0 ∨ (line.length : Int) < start then fault.message
  else
    let mark := underline line start.toNat
    fault.message ++ Text.lineFeed :: line ++
      Text.lineFeed :: if colored then Console.red mark else mark

/-- The reports of an assembly's faults. -/
def Assembly.faultReports (assembly : Assembly) (colored : Bool) : List Text :=
  assembly.faults.map fun fault =>
    fault.report ((assembly.program.sourceLine fault.position.line).trimEnd
      (· == Text.carriageReturn)) colored

/-! ## The command -/

namespace Assemble

/-- Writes a file and goes on, or fails with the name of what was to be written. -/
def writeOrFail (label path content : Text) (what : String) (next : Script) : Script :=
  .write path content fun
    | none => next
    | some error => Console.fail label [Text.ofString "Error writing " ++ Text.ofString what,
        error.message path]

/-- The symbol file of an assembly. -/
def symbolFile (source : Source) (assembly : Assembly) : SymbolFile :=
  { source := source.location, mode := assembly.mode.code, symbols := assembly.symbols }

/-- Writes what belongs to a program without faults. -/
def writeProgram (options : AssembleOptions) (label : Text) (source : Source)
    (assembly : Assembly) (object : Text) : Script :=
  writeOrFail label (options.objectPath source) object "object program" <|
    if options.symbols then
      writeOrFail label (options.symbolPath source) (symbolFile source assembly).encode
        "symbol table" (.exit 0)
    else .exit 0

/-- Reports the faults of an assembly, or writes its program if there are none. -/
def finish (console : Console) (options : AssembleOptions) (label : Text) (source : Source)
    (assembly : Assembly) : Script :=
  match assembly.faults, assembly.report.objectProgram with
  | [], .ok object => writeProgram options label source assembly object
  | [], .error refusal =>
    Console.fail label [Text.ofString "Error writing object program", refusal.message]
  | _ :: _, _ => Console.fail label (assembly.faultReports console.coloredLog)

/-- Writes the listings of a run, and then what follows them. The object listing is written only if
the layout found no fault. -/
def writeListings (console : Console) (options : AssembleOptions) (label : Text) (source : Source)
    (run : Run) : Script :=
  let next := finish console options label source run.assembly
  writeOrFail label (options.listingPath source) run.listing "listing" <|
    if run.assembly.program.errorFree then
      writeOrFail label (options.objectListingPath source) (run.objectListing.getD [])
        "object listing" next
    else next

/-- Assembles a source. -/
def ofSource (console : Console) (options : AssembleOptions) (source : Source) : Script :=
  let label := console.label source.name
  let session : Session := { text := source.text, mode := options.mode }
  let (after, failure) := session.assemble
  match failure, after.last with
  | none, some run =>
    let next := writeListings console options label source run
    if options.verbose then .log session.trace next else next
  | failure, _ => Console.fail label (failure.toList.map SourceError.message)

/-- The path that stands for the input. -/
def inputPath : Text := "-"

/-- Reads a source and assembles it. A path that cannot be opened is reported without a name. -/
def script (console : Console) (options : AssembleOptions) : Script :=
  if options.file = inputPath then
    .readInput fun text => ofSource console options (.ofInput text)
  else .read options.file fun
    | .ok text => ofSource console options (.ofFile console options.file text)
    | .error .isDirectory =>
      let name := Path.base options.file
      Console.fail (console.label name) [name ++ Text.ofString " is not a valid SIC assembly file"]
    | .error error => Console.fail [] [error.message options.file]

end Assemble

end SicXe
