import SicXe.Numeral.Digits
import SicXe.Symbol.Table

/-!
# Symbol files

A symbol file tells a debugger where a program's labels are. It begins with a fixed description of
its own layout, followed by one message: the path of the source, the number of the machine, and the
labels with their addresses. Numbers take one byte below 128 and are otherwise big-endian behind a
byte that counts them downwards from 256. A field is preceded by the distance of its number to that
of the field before it, and is left out when it is empty; the labels are always there.
-/

namespace SicXe

/-- What a symbol file says. -/
structure SymbolFile where
  source : Text := []
  mode : UInt64 := 0
  symbols : SymbolTable := {}
  deriving DecidableEq, Repr

/-- Why bytes are no symbol file. -/
inductive SymbolFileError where
  /-- There are no bytes. -/
  | empty
  /-- The bytes end, or make no sense, before the message does. -/
  | incomplete
  deriving DecidableEq, Repr

/-- The wording of a symbol file's flaw. -/
def SymbolFileError.message : SymbolFileError → Text
  | .empty => "EOF"
  | .incomplete => "unexpected EOF"

namespace SymbolFile

/-- The description of the layout: a record `SymbolFile` with a text `Source`, a number `Mode` and
`Symbols`, and a map `SymTable` from texts to numbers. -/
def layout : Text :=
  [0x38, 0x7F, 0x03, 0x01, 0x01, 0x0A] ++ Text.ofString "SymbolFile" ++
    [0x01, 0xFF, 0x80, 0x00, 0x01, 0x03, 0x01, 0x06] ++ Text.ofString "Source" ++
    [0x01, 0x0C, 0x00, 0x01, 0x04] ++ Text.ofString "Mode" ++
    [0x01, 0x06, 0x00, 0x01, 0x07] ++ Text.ofString "Symbols" ++
    [0x01, 0xFF, 0x82, 0x00, 0x00, 0x00, 0x18, 0xFF, 0x81, 0x04, 0x01, 0x01, 0x08] ++
    Text.ofString "SymTable" ++ [0x01, 0xFF, 0x82, 0x00, 0x01, 0x0C, 0x01, 0x06, 0x00, 0x00]

/-- The bytes in front of a message's fields, which name its layout. -/
def messageLayout : Text := [0xFF, 0x80]

/-! ## Writing -/

/-- A number. -/
def encodeNumber (n : Nat) : Text :=
  if n < 128 then [UInt8.ofNat n]
  else
    let bytes := Numeral.digits UInt8.ofNat 256 n
    UInt8.ofNat (256 - bytes.length) :: bytes

/-- A text: its length, then its bytes. -/
def encodeText (t : Text) : Text := encodeNumber t.length ++ t

/-- A label with its address. -/
def encodeEntry (entry : Text × UInt32) : Text :=
  encodeText entry.1 ++ encodeNumber entry.2.toNat

/-- The labels: their number, then each with its address. -/
def encodeEntries (entries : List (Text × UInt32)) : Text :=
  encodeNumber entries.length ++ entries.flatMap encodeEntry

/-- Numbered fields, each behind its distance from the field before. -/
def encodeFields (before : Nat) : List (Nat × Text) → Text
  | [] => [0]
  | (number, content) :: fields =>
    encodeNumber (number - before) ++ content ++ encodeFields number fields

/-- The fields that are written, with their numbers. -/
def fields (file : SymbolFile) : List (Nat × Text) :=
  (if file.source = [] then [] else [(1, encodeText file.source)]) ++
    (if file.mode = 0 then [] else [(2, encodeNumber file.mode.toNat)]) ++
    [(3, encodeEntries file.symbols.entries)]

/-- The symbol file as written. -/
def encode (file : SymbolFile) : Text :=
  layout ++ encodeText (messageLayout ++ encodeFields 0 file.fields)

/-! ## Reading -/

/-- So many bytes, and what follows them. -/
def takeBytes? (n : Nat) (t : Text) : Option (Text × Text) :=
  if n ≤ t.length then some (t.take n, t.drop n) else none

/-- A number, and what follows it. -/
def decodeNumber? : Text → Option (Nat × Text)
  | [] => none
  | b :: t =>
    if b.toNat < 128 then some (b.toNat, t)
    else (takeBytes? (256 - b.toNat) t).map fun (bytes, rest) =>
      (bytes.foldl (fun n b => n * 256 + b.toNat) 0, rest)

/-- A text, and what follows it. -/
def decodeText? (t : Text) : Option (Text × Text) := do
  let (length, t) ← decodeNumber? t
  takeBytes? length t

/-- So many labels with their addresses, and what follows them. -/
def decodeEntries? (table : SymbolTable) : Nat → Text → Option (SymbolTable × Text)
  | 0, t => some (table, t)
  | count + 1, t => do
    let (label, t) ← decodeText? t
    let (address, t) ← decodeNumber? t
    decodeEntries? (table.insert label (UInt32.ofNat address)) count t

/-- The field with the given number. -/
def decodeField? (file : SymbolFile) (number : Nat) (t : Text) : Option (SymbolFile × Text) :=
  match number with
  | 1 => (decodeText? t).map fun (source, t) => ({ file with source }, t)
  | 2 => (decodeNumber? t).map fun (mode, t) => ({ file with mode := UInt64.ofNat mode }, t)
  | 3 => do
    let (count, t) ← decodeNumber? t
    let (symbols, t) ← decodeEntries? .empty count t
    return ({ file with symbols }, t)
  | _ => none

/-- At most so many fields, up to the mark that ends them or to the end of the message. -/
def decodeFields? (file : SymbolFile) (before : Nat) : (fuel : Nat) → Text → Option SymbolFile
  | _, [] => some file
  | 0, _ :: _ => none
  | fuel + 1, b :: t => do
    let (distance, t) ← decodeNumber? (b :: t)
    if distance = 0 then some file
    else
      let (file, t) ← decodeField? file (before + distance) t
      decodeFields? file (before + distance) fuel t

/-- The content of a message. Three fields and the mark behind them are the most it can have. -/
def decodeMessage? (t : Text) : Option SymbolFile :=
  if messageLayout.isPrefixOf t then decodeFields? {} 0 4 (t.drop messageLayout.length) else none

/-- The symbol file that bytes stand for. -/
def decode (t : Text) : Except SymbolFileError SymbolFile :=
  if t = [] then .error .empty
  else
    let file := if layout.isPrefixOf t then do
      let (message, _) ← decodeText? (t.drop layout.length)
      decodeMessage? message
    else none
    match file with
    | some file => .ok file
    | none => .error .incomplete

end SymbolFile

end SicXe
