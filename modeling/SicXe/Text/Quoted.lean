import SicXe.Numeral.Digits
import SicXe.Text.Glyph
import SicXe.Text.Printable

/-!
# Quoted text

A message shows a text that came from outside between quotes. Printable characters stand for
themselves; the quote in use, the backslash and everything else is written as an escape.
-/

namespace SicXe.Text

/-- Lower case hexadecimal with at least `width` digits. -/
def lowerHex (width n : Nat) : Text :=
  Numeral.zeroPad width (Numeral.digits Numeral.lowerDigit 16 n)

/-- The letter of the short escape for a control character, if it has one. -/
def shortEscape? (c : Char) : Option UInt8 :=
  match c.toNat with
  | 0x07 => some 0x61
  | 0x08 => some 0x62
  | 0x09 => some 0x74
  | 0x0A => some 0x6E
  | 0x0B => some 0x76
  | 0x0C => some 0x66
  | 0x0D => some 0x72
  | _ => none

/-- A character inside quotes of the given kind. -/
def escapeChar (quote : UInt8) (c : Char) : Text :=
  if c.toNat = quote.toNat ∨ c.toNat = 0x5C then [0x5C, UInt8.ofNat c.toNat]
  else if isPrintable c then (Glyph.char c).bytes
  else match shortEscape? c with
    | some letter => [0x5C, letter]
    | none =>
      let n := c.toNat
      if n < 0x80 then ofString "\\x" ++ lowerHex 2 n
      else if n < 0x10000 then ofString "\\u" ++ lowerHex 4 n
      else ofString "\\U" ++ lowerHex 8 n

/-- A glyph inside quotes of the given kind. -/
def escapeGlyph (quote : UInt8) : Glyph → Text
  | .char c => escapeChar quote c
  | .stray b => ofString "\\x" ++ lowerHex 2 b.toNat

/-- The text between double quotes. -/
def quoted (t : Text) : Text := 0x22 :: t.glyphs.flatMap (escapeGlyph 0x22) ++ [0x22]

/-- The character whose code is the byte, between apostrophes. -/
def quotedByte (b : UInt8) : Text :=
  apostrophe :: escapeChar apostrophe (Char.ofNat b.toNat) ++ [apostrophe]

end SicXe.Text
