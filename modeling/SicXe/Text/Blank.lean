import SicXe.Text.Glyph

/-!
# Blanks and fields

The blanks are the white space characters of Unicode. `Text.fields` gives the maximal runs of
glyphs between blanks; a stray byte is no blank.
-/

namespace SicXe

/-- White space: the controls from tab to carriage return, the blank, next line, the no-break
space, and the spaces and separators above U+1000. -/
def Glyph.isBlank : Glyph → Bool
  | .stray _ => false
  | .char c =>
    let n := c.toNat
    (0x09 ≤ n && n ≤ 0x0D) || n == 0x20 || n == 0x85 || n == 0xA0 || n == 0x1680 ||
      (0x2000 ≤ n && n ≤ 0x200A) || n == 0x2028 || n == 0x2029 || n == 0x202F || n == 0x205F ||
      n == 0x3000

namespace Text

/-- Fields under construction: the one that the next glyph to the left may extend, and the
finished ones after it. -/
structure Fields where
  current : Text
  finished : List Text

/-- The fields with the current one closed. -/
def Fields.close (f : Fields) : List Text :=
  if f.current = [] then f.finished else f.current :: f.finished

/-- One glyph to the left of the fields. -/
def Fields.push (g : Glyph) (f : Fields) : Fields :=
  if g.isBlank then ⟨[], f.close⟩ else ⟨g.bytes ++ f.current, f.finished⟩

/-- The maximal runs of non-blank glyphs. -/
def fields (t : Text) : List Text := (t.glyphs.foldr Fields.push ⟨[], []⟩).close

/-- The text without the blanks it begins with. -/
def trimStart (t : Text) : Text := (t.glyphs.dropWhile Glyph.isBlank).flatMap Glyph.bytes

/-- The text without the blanks at both ends. -/
def trim (t : Text) : Text :=
  ((t.glyphs.dropWhile Glyph.isBlank).reverse.dropWhile Glyph.isBlank).reverse.flatMap Glyph.bytes

end Text

end SicXe
