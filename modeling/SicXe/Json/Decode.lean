import SicXe.Json.Basic
import SicXe.Numeral.Decode

/-!
# Decoding JSON

A decoder updates a value from JSON and fails on JSON of the wrong kind. Null changes nothing. A
record takes each member of an object in turn, matching its name without regard to case; members
without a place are ignored, and a repeated member updates the same place again.
-/

namespace SicXe.Json

/-- Updates a value from JSON. -/
abbrev Decoder (α : Type) := α → Json → Option α

/-- A string. -/
def decodeString : Decoder Text
  | held, .null => some held
  | _, .string s => some s
  | _, _ => none

/-- The whole number of 64 bits that a literal stands for; a point or an exponent is no part of
one. -/
def wholeNumber? (literal : Text) : Option Int :=
  let (negative, digits) := Numeral.splitSign literal
  if digits ≠ [] ∧ digits.all (fun b => (Numeral.digit? 10 b).isSome) then
    let n : Nat := digits.foldl (fun n b => n * 10 + ((Numeral.digit? 10 b).getD 0)) 0
    let value : Int := if negative then -(n : Int) else n
    if -0x8000000000000000 ≤ value ∧ value < 0x8000000000000000 then some value else none
  else none

/-- A whole number of 64 bits. -/
def decodeInt : Decoder Int
  | held, .null => some held
  | _, .number literal => wholeNumber? literal
  | _, _ => none

/-- A value that may be absent; null makes it absent. -/
def decodeOption {α : Type} (fresh : α) (decode : Decoder α) : Decoder (Option α)
  | _, .null => some none
  | held, json => (decode (held.getD fresh) json).map some

/-- The places of a list: the items that count, and behind them items that stood there before the
list was shortened. -/
structure Slots (α : Type) where
  items : List α := []
  left : List α := []

/-- Items over the ones that stood at their places before. -/
def decodeItems {α : Type} (fresh : α) (decode : Decoder α) :
    List α → List Json → Option (Slots α)
  | held, [] => some { left := held }
  | held, json :: rest => do
    let item ← decode (held.head?.getD fresh) json
    let slots ← decodeItems fresh decode held.tail rest
    return { slots with items := item :: slots.items }

/-- A list. A longer list than the one before finds again what stood at its places; null and an
empty list leave nothing behind. -/
def decodeList {α : Type} (fresh : α) (decode : Decoder α) : Decoder (Slots α)
  | _, .null | _, .array [] => some {}
  | held, .array items => decodeItems fresh decode (held.items ++ held.left) items
  | _, _ => none

/-- A name without its case. The long s and the Kelvin sign are forms of s and k. -/
def foldName (name : Text) : Text :=
  name.glyphs.flatMap fun
    | .char c =>
      if c.toNat = 0x17F then Text.ofString "s"
      else if c.toNat = 0x212A then Text.ofString "k"
      else (Glyph.char c.toLower).bytes
    | .stray b => [b]

/-- The place of a record that members with the given name update. -/
structure Place (α : Type) where
  name : String
  update : Decoder α

/-- The members of an object in order. -/
def decodeMembers {α : Type} (places : List (Place α)) : α → List (Text × Json) → Option α
  | held, [] => some held
  | held, (name, json) :: members =>
    match places.find? fun place => foldName (Text.ofString place.name) == foldName name with
    | none => decodeMembers places held members
    | some place =>
      match place.update held json with
      | none => none
      | some held => decodeMembers places held members

/-- A record with the given places. -/
def decodeRecord {α : Type} (places : List (Place α)) : Decoder α
  | held, .null => some held
  | held, .object members => decodeMembers places held members
  | _, _ => none

end SicXe.Json
