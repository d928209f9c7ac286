import SicXe.Text.Quoted

/-!
# JSON values

A number keeps the text it was written with, and an object keeps its members in the order in which
they were written, repeated names included. `Json.render` writes a value without blanks, and
`Json.canonical` sorts the members of every object and keeps the last of each name.
-/

namespace SicXe

/-- A JSON value. -/
inductive Json where
  | null
  | bool (b : Bool)
  | number (literal : Text)
  | string (s : Text)
  | array (items : List Json)
  | object (members : List (Text × Json))
  deriving Repr, BEq

namespace Json

/-- A natural number. -/
def nat (n : Nat) : Json := .number (Numeral.decimal n)

/-- A whole number. -/
def int (n : Int) : Json := .number (Numeral.signedDecimal n)

/-- An object with distinct names. -/
def record (members : List (String × Json)) : Json :=
  .object (members.map fun (name, value) => (Text.ofString name, value))

/-! ## Writing -/

/-- A character in a written string. Marks that mean something in a page are written as escapes, so
that a message can stand in one. -/
def escapeChar (c : Char) : Text :=
  match c.toNat with
  | 0x08 => "\\b"
  | 0x09 => "\\t"
  | 0x0A => "\\n"
  | 0x0C => "\\f"
  | 0x0D => "\\r"
  | 0x22 => "\\\""
  | 0x5C => "\\\\"
  | n =>
    if n < 0x20 ∨ n = 0x26 ∨ n = 0x3C ∨ n = 0x3E ∨ n = 0x2028 ∨ n = 0x2029 then
      Text.ofString "\\u" ++ Text.lowerHex 4 n
    else (Glyph.char c).bytes

/-- The replacement character. -/
def replacement : Text := [0xEF, 0xBF, 0xBD]

/-- A written string. Every stray byte becomes the replacement character. -/
def renderString (s : Text) : Text :=
  0x22 :: s.glyphs.flatMap (fun
    | .char c => escapeChar c
    | .stray _ => replacement) ++ [0x22]

mutual

/-- A value as written. -/
def render : Json → Text
  | .null => "null"
  | .bool true => "true"
  | .bool false => "false"
  | .number literal => literal
  | .string s => renderString s
  | .array items => 0x5B :: renderItems items ++ [0x5D]
  | .object members => 0x7B :: renderMembers members ++ [0x7D]

/-- Items with commas between them. -/
def renderItems : List Json → Text
  | [] => []
  | [item] => render item
  | item :: items => render item ++ Text.comma :: renderItems items

/-- Members with commas between them. -/
def renderMembers : List (Text × Json) → Text
  | [] => []
  | [(name, value)] => renderString name ++ 0x3A :: render value
  | (name, value) :: members =>
    renderString name ++ 0x3A :: render value ++ Text.comma :: renderMembers members

end

/-! ## Members -/

/-- The member with the given name; of several the last one counts. -/
def member? (name : Text) : Json → Option Json
  | .object members => (members.reverse.find? (·.1 == name)).map (·.2)
  | _ => none

/-- A member put in its place among members sorted by name. -/
def insertMember (name : Text) (value : Json) : List (Text × Json) → List (Text × Json)
  | [] => [(name, value)]
  | (other, held) :: members =>
    if name = other then (name, held) :: members
    else if name.precedes other then (name, value) :: (other, held) :: members
    else (other, held) :: insertMember name value members

mutual

/-- The value with the members of every object sorted by name, the last of each name. -/
def canonical : Json → Json
  | .array items => .array (canonicalItems items)
  | .object members => .object (canonicalMembers members)
  | value => value

/-- The items with their members sorted. -/
def canonicalItems : List Json → List Json
  | [] => []
  | item :: items => canonical item :: canonicalItems items

/-- The members sorted by name. A member that stands further right counts. -/
def canonicalMembers : List (Text × Json) → List (Text × Json)
  | [] => []
  | (name, value) :: members => insertMember name (canonical value) (canonicalMembers members)

end

end Json

end SicXe
