import SicXe.Command.Arguments
import SicXe.Command.Listen

/-!
# The command line

Arguments that make no sense end the program with the code for misuse.
-/

namespace SicXe

namespace Command

/-- The lines that say how the arguments are used. -/
def usageLines : List String :=
  ["Usage: sicasm <command>", "", "Two pass SIC and SIC/XE assembler.", "", "Commands:",
    "  asm      Assemble a SIC or SIC/XE source file.",
    "  dump     Load an object program and dump its memory.",
    "  lsp      Run the language server.",
    "  serve    Serve the websocket assemble service."]

/-- How the arguments are used. -/
def usage : Text := usageLines.flatMap fun line => Text.ofString line ++ [Text.lineFeed]

/-- The script of a command. -/
def script (console : Console) : Command → Script
  | .assemble options => Assemble.script console options
  | .dump options => Dump.script console options
  | .editor mode address => Listen.editor console mode address
  | .web _ address => Listen.web console address
  | .help => .print usage (.exit 0)

/-- The script that arguments ask for. -/
def ofLine (console : Console) (arguments : List Text) : Script :=
  match ofArguments? arguments with
  | some command => command.script console
  | none => .exit Script.misuse

/-- Carries out what arguments ask for over a file store, with the given input. -/
def run (console : Console) (store : FileStore) (input : Text) (arguments : List Text) : Outcome :=
  (ofLine console arguments).run input store

end Command

end SicXe
