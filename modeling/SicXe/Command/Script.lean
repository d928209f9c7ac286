import SicXe.Command.FileStore

/-!
# Scripts

A command is a script: a sequence of messages, prints, reads and writes that ends with an exit code.
What follows a read or a write depends on its outcome. `Script.run` carries a script out over a file
store and gives everything that can be seen of it.
-/

namespace SicXe

/-- What a command does. -/
inductive Script where
  /-- The command ends. -/
  | exit (code : Nat)
  /-- Something is written for the user's attention. -/
  | log (text : Text) (next : Script)
  /-- Something is written as output. -/
  | print (text : Text) (next : Script)
  /-- The whole input is read. -/
  | readInput (next : Text → Script)
  /-- A file is read. -/
  | read (path : Text) (next : Except FileError Text → Script)
  /-- A file is written. -/
  | write (path content : Text) (next : Option FileError → Script)

/-- The exit code for arguments that make no sense. -/
def Script.misuse : Nat := 2

/-- What is seen of a script that was carried out. -/
structure Outcome where
  code : Nat
  output : Text
  log : Text
  store : FileStore
  deriving DecidableEq, Repr

/-- Carries a script out over a file store, with the given input. -/
def Script.run (input : Text) : FileStore → Script → Outcome
  | store, .exit code => { code, output := [], log := [], store }
  | store, .log text next =>
    let outcome := run input store next
    { outcome with log := text ++ outcome.log }
  | store, .print text next =>
    let outcome := run input store next
    { outcome with output := text ++ outcome.output }
  | store, .readInput next => run input store (next input)
  | store, .read path next => run input store (next (store.read path))
  | store, .write path content next =>
    match store.write path content with
    | .ok store => run input store (next none)
    | .error error => run input store (next (some error))

end SicXe
