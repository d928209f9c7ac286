import SicXe.Json.Basic

/-!
# Reading JSON

A text is first cut into tokens and then read with a stack of the arrays and objects that are still
open. Nothing but blanks may stand around the value. At most 10000 arrays and objects may be open at
a time. An escape for half of a surrogate pair, and a byte that belongs to no character, are read as
the replacement character.
-/

namespace SicXe.Json

/-! ## Numbers -/

/-- How far a number has been read. -/
inductive NumberPart where
  | begin
  | minus
  | zero
  | whole
  | point
  | fraction
  | exponentMark
  | exponentSign
  | exponent
  deriving DecidableEq, Repr

/-- The part that one more byte leads to. -/
def NumberPart.next? (part : NumberPart) (b : UInt8) : Option NumberPart :=
  let isZero := b == 0x30
  let isDigit := (Numeral.digit? 10 b).isSome
  let isMark := b == 0x65 || b == 0x45
  match part with
  | .begin =>
    if b == 0x2D then some .minus else if isZero then some .zero
    else if isDigit then some .whole else none
  | .minus => if isZero then some .zero else if isDigit then some .whole else none
  | .zero => if b == 0x2E then some .point else if isMark then some .exponentMark else none
  | .whole =>
    if isDigit then some .whole else if b == 0x2E then some .point
    else if isMark then some .exponentMark else none
  | .point => if isDigit then some .fraction else none
  | .fraction =>
    if isDigit then some .fraction else if isMark then some .exponentMark else none
  | .exponentMark =>
    if isDigit then some .exponent else if b == 0x2B || b == 0x2D then some .exponentSign else none
  | .exponentSign | .exponent => if isDigit then some .exponent else none

/-- Whether a number may end after the part. -/
def NumberPart.isEnd : NumberPart → Bool
  | .zero | .whole | .fraction | .exponent => true
  | _ => false

/-- Whether a text is a number. -/
def isNumber (t : Text) : Bool :=
  (t.foldl (fun part b => part.bind (·.next? b)) (some NumberPart.begin)).any (·.isEnd)

/-! ## Strings -/

/-- The byte that a short escape stands for. -/
def shortEscape? (letter : UInt8) : Option UInt8 :=
  match letter.toNat with
  | 0x22 => some 0x22
  | 0x5C => some 0x5C
  | 0x2F => some 0x2F
  | 0x62 => some 0x08
  | 0x66 => some 0x0C
  | 0x6E => some 0x0A
  | 0x72 => some 0x0D
  | 0x74 => some 0x09
  | _ => none

/-- The number that four hexadecimal digits stand for. -/
def unit? (a b c d : UInt8) : Option Nat := do
  let a ← Numeral.digit? 16 a
  let b ← Numeral.digit? 16 b
  let c ← Numeral.digit? 16 c
  let d ← Numeral.digit? 16 d
  return ((a * 16 + b) * 16 + c) * 16 + d

/-- A string under construction: its bytes in reverse, and the first half of a surrogate pair that
waits for the second. -/
structure Draft where
  reversed : Text := []
  half : Option Nat := none

namespace Draft

/-- The draft with a half that found no partner replaced. -/
def settle (draft : Draft) : Draft :=
  match draft.half with
  | none => draft
  | some _ => { reversed := replacement.reverse ++ draft.reversed }

/-- The draft with one more byte. -/
def pushByte (draft : Draft) (b : UInt8) : Draft :=
  { reversed := b :: draft.settle.reversed }

/-- The draft with one more character. -/
def pushChar (draft : Draft) (c : Char) : Draft :=
  { reversed := (String.utf8EncodeChar c).reverse ++ draft.reversed }

/-- The draft with one more unit of an escape: a character, or half of a surrogate pair. -/
def pushUnit (draft : Draft) (unit : Nat) : Draft :=
  if 0xD800 ≤ unit ∧ unit < 0xDC00 then { draft.settle with half := some unit }
  else if 0xDC00 ≤ unit ∧ unit < 0xE000 then
    match draft.half with
    | some high =>
      pushChar { draft with half := none }
        (Char.ofNat (0x10000 + (high - 0xD800) * 0x400 + (unit - 0xDC00)))
    | none => draft.pushChar (Char.ofNat 0xFFFD)
  else draft.settle.pushChar (Char.ofNat unit)

end Draft

/-- The string between quotes, behind the part that the draft holds. -/
def unescapeFrom (draft : Draft) : Text → Option Text
  | [] => some (Text.repaired draft.settle.reversed.reverse)
  | b :: t =>
    if b = 0x5C then
      match t with
      | [] => none
      | letter :: t =>
        if letter = 0x75 then
          match t with
          | a :: b :: c :: d :: t =>
            match unit? a b c d with
            | some unit => unescapeFrom (draft.pushUnit unit) t
            | none => none
          | _ => none
        else
          match shortEscape? letter with
          | some byte => unescapeFrom (draft.pushByte byte) t
          | none => none
    else if b.toNat < 0x20 then none
    else unescapeFrom (draft.pushByte b) t

/-- The string that stands between quotes. -/
def unescape? (t : Text) : Option Text := unescapeFrom {} t

/-! ## Tokens -/

/-- A piece of JSON text. -/
inductive Token where
  /-- A bracket, a brace, a colon or a comma. -/
  | mark (b : UInt8)
  /-- A value that is neither an array nor an object. -/
  | scalar (value : Json)

/-- Where the cutting into tokens stands; the text of an open token is kept in reverse. -/
inductive Cutter where
  | between
  | word (reversed : Text)
  | number (reversed : Text)
  | string (reversed : Text)
  /-- In a string behind a backslash. -/
  | escape (reversed : Text)

/-- Whether a byte is a bracket, a brace, a colon or a comma. -/
def isMark (b : UInt8) : Bool :=
  b == 0x5B || b == 0x5D || b == 0x7B || b == 0x7D || b == 0x3A || b == Text.comma

/-- Whether a byte may stand between tokens. -/
def isSeparator (b : UInt8) : Bool :=
  b == Text.blank || b == Text.tab || b == Text.lineFeed || b == Text.carriageReturn

/-- Whether a byte can belong to a number. -/
def isNumberByte (b : UInt8) : Bool :=
  (Numeral.digit? 10 b).isSome || b == 0x2D || b == 0x2B || b == 0x2E || b == 0x65 || b == 0x45

/-- Whether a byte can belong to a word. -/
def isWordByte (b : UInt8) : Bool := 0x61 ≤ b.toNat && b.toNat ≤ 0x7A

/-- The value of a word. -/
def word? (t : Text) : Option Json :=
  if t = "null" then some .null
  else if t = "true" then some (.bool true)
  else if t = "false" then some (.bool false)
  else none

/-- The open token as a value; between tokens there is none. -/
def Cutter.close? : Cutter → Option (List Token)
  | .between => some []
  | .word reversed => (word? reversed.reverse).map fun value => [.scalar value]
  | .number reversed =>
    if isNumber reversed.reverse then some [.scalar (.number reversed.reverse)] else none
  | .string _ | .escape _ => none

/-- The tokens that a byte between tokens completes, and where the cutting stands behind it. -/
def startToken? (b : UInt8) : Option (List Token × Cutter) :=
  if isSeparator b then some ([], .between)
  else if isMark b then some ([.mark b], .between)
  else if b == 0x22 then some ([], .string [])
  else if isWordByte b then some ([], .word [b])
  else if isNumberByte b then some ([], .number [b])
  else none

/-- The tokens that a byte completes, and where the cutting stands behind it. -/
def Cutter.push? (cutter : Cutter) (b : UInt8) : Option (List Token × Cutter) :=
  match cutter with
  | .between => startToken? b
  | .word reversed =>
    if isWordByte b then some ([], .word (b :: reversed))
    else do
      let done ← cutter.close?
      let (more, cutter) ← startToken? b
      return (done ++ more, cutter)
  | .number reversed =>
    if isNumberByte b then some ([], .number (b :: reversed))
    else do
      let done ← cutter.close?
      let (more, cutter) ← startToken? b
      return (done ++ more, cutter)
  | .string reversed =>
    if b == 0x5C then some ([], .escape (b :: reversed))
    else if b == 0x22 then
      (unescape? reversed.reverse).map fun s => ([.scalar (.string s)], .between)
    else some ([], .string (b :: reversed))
  | .escape reversed => some ([], .string (b :: reversed))

/-! ## Values -/

/-- An array or object that is still open, its content in reverse. -/
inductive Frame where
  | array (items : List Json)
  | object (members : List (Text × Json))
  /-- An object behind the name of a member. -/
  | member (members : List (Text × Json)) (name : Text)

/-- What may come next. -/
inductive Next where
  | value
  /-- Behind an opening bracket. -/
  | firstItem
  /-- Behind an opening brace. -/
  | firstName
  | name
  | colon
  /-- Behind a value in an array or object. -/
  | separator
  /-- Behind the whole value. -/
  | nothing (value : Json)

/-- The reading under way. -/
structure Reading where
  depth : Nat := 0
  stack : List Frame := []
  next : Next := .value

/-- The most arrays and objects that may be open at a time. -/
def maxDepth : Nat := 10000

namespace Reading

/-- A complete value. -/
def put? (reading : Reading) (value : Json) : Option Reading :=
  match reading.stack with
  | [] => some { reading with next := .nothing value }
  | .array items :: stack =>
    some { reading with stack := .array (value :: items) :: stack, next := .separator }
  | .member members name :: stack =>
    some { reading with stack := .object ((name, value) :: members) :: stack, next := .separator }
  | .object _ :: _ => none

/-- A new array or object. -/
def open? (reading : Reading) (frame : Frame) (next : Next) : Option Reading :=
  if reading.depth < maxDepth then
    some { depth := reading.depth + 1, stack := frame :: reading.stack, next }
  else none

/-- The end of the innermost array or object. -/
def close? (reading : Reading) (b : UInt8) : Option Reading :=
  match reading.stack with
  | .array items :: stack =>
    if b == 0x5D then
      put? { reading with depth := reading.depth - 1, stack } (.array items.reverse)
    else none
  | .object members :: stack =>
    if b == 0x7D then
      put? { reading with depth := reading.depth - 1, stack } (.object members.reverse)
    else none
  | _ => none

/-- The beginning of a value. -/
def value? (reading : Reading) : Token → Option Reading
  | .scalar value => reading.put? value
  | .mark b =>
    if b == 0x5B then reading.open? (.array []) .firstItem
    else if b == 0x7B then reading.open? (.object []) .firstName
    else none

/-- The name of a member. -/
def name? (reading : Reading) : Token → Option Reading
  | .scalar (.string name) =>
    match reading.stack with
    | .object members :: stack =>
      some { reading with stack := .member members name :: stack, next := .colon }
    | _ => none
  | _ => none

/-- One token. -/
def push? (reading : Reading) (token : Token) : Option Reading :=
  match reading.next, token with
  | .value, token => reading.value? token
  | .firstItem, .mark 0x5D => reading.close? 0x5D
  | .firstItem, token => reading.value? token
  | .firstName, .mark 0x7D => reading.close? 0x7D
  | .firstName, token => reading.name? token
  | .name, token => reading.name? token
  | .colon, .mark b => if b == 0x3A then some { reading with next := .value } else none
  | .separator, .mark b =>
    if b == Text.comma then
      match reading.stack with
      | .array _ :: _ => some { reading with next := .value }
      | _ => some { reading with next := .name }
    else reading.close? b
  | _, _ => none

/-- The tokens in order. -/
def pushAll? (reading : Reading) : List Token → Option Reading
  | [] => some reading
  | token :: tokens => (reading.push? token).bind (·.pushAll? tokens)

/-- The value, if it is complete. -/
def value : Reading → Option Json
  | { next := .nothing value, .. } => some value
  | _ => none

end Reading

/-- The value of a text behind the part that was read. -/
def readFrom (cutter : Cutter) (reading : Reading) : Text → Option Json
  | [] => do (← reading.pushAll? (← cutter.close?)).value
  | b :: t =>
    match cutter.push? b with
    | none => none
    | some (tokens, cutter) =>
      match reading.pushAll? tokens with
      | none => none
      | some reading => readFrom cutter reading t

/-- The value that a text stands for. -/
def read? (t : Text) : Option Json := readFrom .between {} t

/-- The value that is complete first in a text behind the part that was read, and the number of
bytes up to its end. -/
def leadFrom (passed : Nat) (cutter : Cutter) (reading : Reading) : Text → Option (Json × Nat)
  | [] => none
  | b :: t =>
    match cutter.push? b with
    | none => none
    | some (tokens, cutter) =>
      match reading.pushAll? tokens with
      | none => none
      | some reading =>
        match reading.value with
        | some value => some (value, passed + 1)
        | none => leadFrom (passed + 1) cutter reading t

/-- The value that a text begins with, and the number of bytes after which it is complete. What
stands behind it does not matter. -/
def lead? (t : Text) : Option (Json × Nat) := leadFrom 0 .between {} t

end SicXe.Json
