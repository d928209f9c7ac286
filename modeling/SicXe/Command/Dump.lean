import SicXe.Command.Console
import SicXe.Isa.Mode
import SicXe.Machine.Loader

/-!
# The command that dumps memory

The command loads an object program into a machine and prints its header and a part of the memory,
by default the part that the program takes.
-/

namespace SicXe

/-- What to load, and which part of memory to print. -/
structure DumpOptions where
  /-- The path of the object program. -/
  file : Text
  mode : Mode
  /-- The numeral of the first address; without one it is the program's. -/
  address : Option Text := none
  /-- The number of bytes; without one it is the program's. -/
  count : Option UInt32 := none
  deriving DecidableEq, Repr

/-- The hyphen, which is taken for the path of a file without looking. -/
def DumpOptions.unchecked : Text := "-"

/-- The path that is opened: the shortest one. -/
def DumpOptions.path (options : DumpOptions) : Text :=
  if options.file = unchecked then options.file else Path.clean options.file

namespace Dump

/-- The line that describes a loaded program. -/
def describe (machine : Machine) (colored : Bool) : Text :=
  let header := machine.header
  (if colored then Console.bold header.name else header.name) ++
    Text.ofString " start:" ++ Numeral.hex 5 header.start.toNat ++
    Text.ofString " length:" ++ Numeral.hex 5 header.length.toNat ++
    Text.ofString " entry:" ++ Numeral.hex 5 machine.counter.toNat ++ [Text.lineFeed]

/-- The first address to print. -/
def firstAddress (options : DumpOptions) (machine : Machine) : Except Text UInt32 :=
  match options.address with
  | none => .ok machine.header.start
  | some numeral =>
    match Numeral.decodeAddress numeral with
    | .ok address => .ok address
    | .error _ => .error (Text.ofString "Invalid address '" ++ numeral ++ Text.ofString "'")

/-- Loads an object program and prints. -/
def ofObject (console : Console) (options : DumpOptions) (text : Text) : Script :=
  let label := console.label (Path.base options.path)
  let (machine, failure) :=
    (Machine.reset {} options.mode.memorySize).load { text }
  match failure, firstAddress options machine with
  | some error, _ => Console.fail label [error.message]
  | none, .error message => Console.fail label [message]
  | none, .ok address =>
    let count := options.count.getD machine.header.length
    .print (describe machine console.coloredOutput ++
      machine.dump address count console.coloredOutput) (.exit 0)

/-- Reads an object program and prints. A path without a file is no sensible argument; a hyphen is,
and then fails to open. -/
def script (console : Console) (options : DumpOptions) : Script :=
  .read options.path fun
    | .ok text => ofObject console options text
    | .error error =>
      if options.file = DumpOptions.unchecked then
        Console.fail (console.label options.file) [error.message options.file]
      else .exit Script.misuse

end Dump

end SicXe
