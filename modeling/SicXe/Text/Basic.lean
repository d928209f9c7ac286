/-!
# Text as bytes

Sources, labels, messages and written files are byte strings: a label is cut after six bytes, even
inside a character, and a source may hold bytes that are no UTF-8 at all. A string literal stands
for its UTF-8 bytes.
-/

namespace SicXe

/-- A byte string. -/
abbrev Text := List UInt8

namespace Text

/-- The UTF-8 bytes of a string. -/
def ofString (s : String) : Text := s.toList.flatMap String.utf8EncodeChar

instance : Coe String Text := ⟨ofString⟩

/-! ## Bytes with a name -/

/-- The line feed, which ends a line. -/
def lineFeed : UInt8 := 0x0A

/-- The carriage return, which may stand before a line feed. -/
def carriageReturn : UInt8 := 0x0D

/-- The horizontal tab. -/
def tab : UInt8 := 0x09

/-- The blank. -/
def blank : UInt8 := 0x20

/-- The comma, which separates the parts of an operand. -/
def comma : UInt8 := 0x2C

/-- The apostrophe, which encloses the content of a constant. -/
def apostrophe : UInt8 := 0x27

/-! ## Cutting -/

/-- The parts between the occurrences of a separator: one part more than there are separators. -/
def split (separator : UInt8) (t : Text) : List Text :=
  t.foldr
    (fun b parts =>
      if b = separator then [] :: parts
      else match parts with
        | [] => [[b]]
        | part :: rest => (b :: part) :: rest)
    [[]]

/-- The text without the bytes at its end that satisfy `p`. -/
def trimEnd (p : UInt8 → Bool) (t : Text) : Text := (t.reverse.dropWhile p).reverse

/-- The text up to its first line feed. -/
def firstLine (t : Text) : Text := t.takeWhile (· != lineFeed)

/-- The text after the first occurrence of `needle`, if there is one. -/
def after? (needle : Text) : Text → Option Text
  | [] => if needle = [] then some [] else none
  | b :: t => if needle.isPrefixOf (b :: t) then some ((b :: t).drop needle.length)
      else after? needle t

/-- The number of bytes before the first occurrence of `needle`, if there is one; `passed` counts
the bytes already left behind. -/
def offsetFrom (passed : Nat) (needle : Text) : Text → Option Nat
  | [] => if needle = [] then some passed else none
  | b :: t => if needle.isPrefixOf (b :: t) then some passed
      else offsetFrom (passed + 1) needle t

/-- The number of bytes before the first occurrence of `needle`, if there is one. -/
def offset? (needle t : Text) : Option Nat := offsetFrom 0 needle t

/-! ## Order -/

/-- The order of byte strings: by the first byte that differs, a proper beginning first. -/
def precedes : Text → Text → Bool
  | _, [] => false
  | [], _ :: _ => true
  | a :: s, b :: t => a.toNat < b.toNat || (a == b && precedes s t)

end Text

end SicXe
