import SicXe.Command.Assemble
import SicXe.Command.Dump
import SicXe.Numeral.Literal

/-!
# Arguments

The arguments name a command and give its flags and its file. Assembling is meant when the first
argument that is no flag names no command, and its flags may stand before the name of any command.
A flag is written `--name value`, `--name=value`, `-x value` or `-xvalue`; flags that are switched
take no value and may share one hyphen. Two hyphens end the flags. A flag given again replaces what
was given before.
-/

namespace SicXe

/-- A command with everything it is asked to do. -/
inductive Command where
  | assemble (options : AssembleOptions)
  | dump (options : DumpOptions)
  /-- Serve an editor at an address, over input and output if it is empty. -/
  | editor (mode : Mode) (address : Text)
  /-- Serve the web at an address. -/
  | web (mode : Mode) (address : Text)
  /-- Explain the arguments. -/
  | help
  deriving DecidableEq, Repr

namespace Arguments

/-- The names of commands. -/
inductive Verb where
  | assemble
  | dump
  | editor
  | web
  deriving DecidableEq, Repr

/-- The command with the given name. -/
def Verb.ofName? (t : Text) : Option Verb :=
  if t = "asm" then some .assemble
  else if t = "dump" then some .dump
  else if t = "lsp" then some .editor
  else if t = "serve" then some .web
  else none

/-- What a flag says. -/
inductive Flag where
  | mode
  | listing
  | objectListing
  | object
  | symbols
  | verbose
  | firstAddress
  | count
  | editorAddress
  | webAddress
  | help
  deriving DecidableEq, Repr

namespace Flag

/-- The long name of a flag. -/
def name : Flag → Text
  | .mode => "mode"
  | .listing => "listing"
  | .objectListing => "object-listing"
  | .object => "object"
  | .symbols => "symbols"
  | .verbose => "verbose"
  | .firstAddress => "addr"
  | .count => "count"
  | .editorAddress => "tcp"
  | .webAddress => "addr"
  | .help => "help"

/-- The letter of a flag, if it has one. -/
def letter? : Flag → Option UInt8
  | .mode => some 0x6D
  | .listing => some 0x6C
  | .object => some 0x6F
  | .symbols => some 0x67
  | .verbose => some 0x76
  | .firstAddress => some 0x61
  | .count => some 0x6E
  | .help => some 0x68
  | _ => none

/-- Whether a flag is switched, so that it needs no value. -/
def isSwitch : Flag → Bool
  | .symbols | .verbose | .help => true
  | _ => false

end Flag

/-- The flags of a command. -/
def Verb.flags : Verb → List Flag
  | .assemble => [.mode, .listing, .objectListing, .object, .symbols, .verbose, .help]
  | .dump => [.mode, .firstAddress, .count, .help]
  | .editor => [.mode, .editorAddress, .help]
  | .web => [.mode, .webAddress, .help]

/-- What the flags of a command say. -/
structure Settings where
  mode : Text := "xe"
  listing : Text := []
  objectListing : Text := []
  object : Text := []
  symbols : Bool := false
  verbose : Bool := false
  firstAddress : Option Text := none
  count : Option UInt32 := none
  editorAddress : Text := []
  webAddress : Text := "localhost:2035"
  help : Bool := false
  deriving DecidableEq, Repr

namespace Settings

/-- The settings with a switch set. -/
def switch (settings : Settings) (on : Bool) : Flag → Settings
  | .symbols => { settings with symbols := on }
  | .verbose => { settings with verbose := on }
  | .help => { settings with help := settings.help || on }
  | _ => settings

/-- The lower case of an ASCII letter; every other byte stays. -/
def lowerByte (b : UInt8) : UInt8 :=
  if 0x41 ≤ b.toNat ∧ b.toNat ≤ 0x5A then b + 0x20 else b

/-- The value of a switch that is written out, in any case. -/
def switchValue? (t : Text) : Option Bool :=
  let yes : List Text := ["true", "1", "yes"]
  let no : List Text := ["false", "0", "no"]
  let lower : Text := t.map lowerByte
  if lower ∈ yes then some true else if lower ∈ no then some false else none

/-- The settings with the value of a flag, if it is one that the flag can have. -/
def set? (settings : Settings) (value : Text) : Flag → Option Settings
  | .mode => some { settings with mode := value }
  | .listing => some { settings with listing := value }
  | .objectListing => some { settings with objectListing := value }
  | .object => some { settings with object := value }
  | .firstAddress => some { settings with firstAddress := some value }
  | .count => (Numeral.literal? value).map ({ settings with count := some · })
  | .editorAddress => some { settings with editorAddress := value }
  | .webAddress => some { settings with webAddress := value }
  | flag => (switchValue? value).map (settings.switch · flag)

end Settings

/-- What was understood of the arguments so far. -/
structure State where
  /-- The command, once it is known. -/
  verb : Option Verb := none
  /-- What was said to the command that assembles. -/
  assembling : Settings := {}
  /-- What was said to another command. -/
  other : Settings := {}
  /-- The file. -/
  file : Option Text := none
  deriving DecidableEq, Repr

namespace State

/-- The command that flags are meant for. -/
def addressee (state : State) : Verb := state.verb.getD .assemble

/-- What was said to the command that flags are meant for. -/
def settings (state : State) : Settings :=
  if state.addressee = .assemble then state.assembling else state.other

/-- The state with new settings of the command that flags are meant for. -/
def withSettings (state : State) (settings : Settings) : State :=
  if state.addressee = .assemble then { state with assembling := settings }
  else { state with other := settings }

/-- The flag with the given name. -/
def flagNamed? (state : State) (name : Text) : Option Flag :=
  state.addressee.flags.find? (·.name = name)

/-- The flag with the given letter. -/
def flagLettered? (state : State) (letter : UInt8) : Option Flag :=
  state.addressee.flags.find? (·.letter? = some letter)

/-- The state with the value of a flag. -/
def set? (state : State) (flag : Flag) (value : Text) : Option State :=
  (state.settings.set? value flag).map state.withSettings

/-- The state with a switch turned on. -/
def switchOn (state : State) (flag : Flag) : State :=
  state.withSettings (state.settings.switch true flag)

/-- The state after the file, if a file is awaited. -/
def setFile? (state : State) (file : Text) : Option State :=
  match state.addressee, state.file with
  | .assemble, none | .dump, none => some { state with file := some file }
  | _, _ => none

/-- The state after an argument that is no flag. -/
def position? (state : State) (argument : Text) : Option State :=
  match state.verb, Verb.ofName? argument with
  | none, some verb => some { state with verb := some verb }
  | none, none => { state with verb := some .assemble }.setFile? argument
  | some _, _ => state.setFile? argument

end State

/-- The hyphen, which begins a flag. -/
def hyphen : UInt8 := 0x2D

/-- The sign between a flag and its value. -/
def equals : UInt8 := 0x3D

/-- Whether an argument is a flag. A hyphen alone is none. -/
def isFlag (argument : Text) : Bool :=
  argument.head? = some hyphen && argument ≠ [hyphen]

/-- The state with a flag that takes its value from the next argument. -/
def takeValue? (state : State) (flag : Flag) (arguments : List Text) :
    Option (State × List Text) :=
  match arguments with
  | [] => none
  | value :: rest => if isFlag value then none else (state.set? flag value).map (·, rest)

/-- The state after a flag with a long name, and the arguments that follow its value. -/
def longFlag? (state : State) (argument : Text) (rest : List Text) : Option (State × List Text) :=
  let name := argument.takeWhile (· != equals)
  match state.flagNamed? name, argument.drop name.length with
  | none, _ => none
  | some flag, _ :: value => (state.set? flag value).map (·, rest)
  | some flag, [] =>
    if flag.isSwitch then some (state.switchOn flag, rest) else takeValue? state flag rest

/-- The state after flags that share a hyphen, and the arguments that follow the value of the last
one. What stands behind the letter of a flag with a value is its value. -/
def shortFlags? (state : State) : Text → List Text → Option (State × List Text)
  | [], rest => some (state, rest)
  | letter :: tail, rest =>
    match state.flagLettered? letter with
    | none => none
    | some flag =>
      if flag.isSwitch then shortFlags? (state.switchOn flag) tail rest
      else if tail = [] then takeValue? state flag rest
      else (state.set? flag tail).map (·, rest)

/-- The state after one flag, and the arguments that follow it. -/
def flag? (state : State) (argument : Text) (rest : List Text) : Option (State × List Text) :=
  match argument with
  | _ :: b :: tail => if b = hyphen then longFlag? state tail rest
      else shortFlags? state (b :: tail) rest
  | _ => none

/-- The state after at most so many arguments. -/
def stateAfter? (fuel : Nat) (state : State) (arguments : List Text) : Option State :=
  match fuel, arguments with
  | _, [] => some state
  | 0, _ :: _ => none
  | fuel + 1, argument :: rest =>
    if argument = [hyphen, hyphen] then rest.foldlM State.position? state
    else if isFlag argument then
      match flag? state argument rest with
      | none => none
      | some (state, rest) => stateAfter? fuel state rest
    else match state.position? argument with
      | none => none
      | some state => stateAfter? fuel state rest

/-- The command that a state describes, if it is complete. -/
def State.command? (state : State) : Option Command :=
  match Mode.ofName? state.assembling.mode, Mode.ofName? state.other.mode with
  | some assemblingMode, some mode =>
    match state.verb, state.file with
    | some .assemble, some file =>
      let settings := state.assembling
      some (.assemble
        { file
          mode := assemblingMode
          listing := settings.listing
          objectListing := settings.objectListing
          object := settings.object
          symbols := settings.symbols
          verbose := settings.verbose })
    | some .dump, some file =>
      some (.dump
        { file
          mode
          address := state.other.firstAddress
          count := state.other.count })
    | some .editor, _ => some (.editor mode state.other.editorAddress)
    | some .web, _ => some (.web mode state.other.webAddress)
    | _, _ => none
  | _, _ => none

end Arguments

/-- The command that arguments describe, if they make sense. -/
def Command.ofArguments? (arguments : List Text) : Option Command :=
  match Arguments.stateAfter? arguments.length {} arguments with
  | none => none
  | some state =>
    if state.assembling.help || state.other.help then some .help else state.command?

end SicXe
