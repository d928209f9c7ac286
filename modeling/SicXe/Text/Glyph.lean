import SicXe.Text.Basic

/-!
# Characters of a text

A text reads as a sequence of glyphs: characters encoded in UTF-8, and stray bytes that belong to no
character. A stray byte stands for itself alone, so the next byte may begin a character again.
`ofText` splits a text into its glyphs, and `Glyph.bytes` gives back the bytes of each.
-/

namespace SicXe

/-- A character, or a byte that belongs to none. -/
inductive Glyph where
  | char (c : Char)
  | stray (b : UInt8)
  deriving DecidableEq, Repr

namespace Glyph

/-- The bytes of a glyph. -/
def bytes : Glyph → Text
  | .char c => String.utf8EncodeChar c
  | .stray b => [b]

/-- The six bits a continuation byte carries. -/
def continuation? (b : UInt8) : Option Nat :=
  if 0x80 ≤ b.toNat ∧ b.toNat < 0xC0 then some (b.toNat - 0x80) else none

/-- The character with the given code, unless a shorter encoding exists (`code < least`) or the
code belongs to no character. -/
def scalar? (least code : Nat) : Option Char :=
  if least ≤ code ∧ code.isValidChar then some (Char.ofNat code) else none

/-- The character that begins with byte `b` and goes on in `rest`, with the number of bytes it
takes from `rest`. -/
def head? (b : UInt8) (rest : Text) : Option (Char × Nat) :=
  let lead := b.toNat
  if lead < 0x80 then some (Char.ofNat lead, 0)
  else if lead < 0xC0 then none
  else if lead < 0xE0 then
    match rest with
    | b₁ :: _ => do
      let c₁ ← continuation? b₁
      let c ← scalar? 0x80 ((lead - 0xC0) * 64 + c₁)
      return (c, 1)
    | _ => none
  else if lead < 0xF0 then
    match rest with
    | b₁ :: b₂ :: _ => do
      let c₁ ← continuation? b₁
      let c₂ ← continuation? b₂
      let c ← scalar? 0x800 (((lead - 0xE0) * 64 + c₁) * 64 + c₂)
      return (c, 2)
    | _ => none
  else if lead < 0xF8 then
    match rest with
    | b₁ :: b₂ :: b₃ :: _ => do
      let c₁ ← continuation? b₁
      let c₂ ← continuation? b₂
      let c₃ ← continuation? b₃
      let c ← scalar? 0x10000 ((((lead - 0xF0) * 64 + c₁) * 64 + c₂) * 64 + c₃)
      return (c, 3)
    | _ => none
  else none

/-- The glyphs of a text after `skip` more bytes, behind the glyphs `seen`, which are in reverse. -/
def collect (seen : List Glyph) : (skip : Nat) → Text → List Glyph
  | _, [] => seen.reverse
  | skip + 1, _ :: t => collect seen skip t
  | 0, b :: t =>
    match head? b t with
    | some (c, n) => collect (.char c :: seen) n t
    | none => collect (.stray b :: seen) 0 t

end Glyph

namespace Text

/-- The glyphs of a text, in order. -/
def glyphs (t : Text) : List Glyph := Glyph.collect [] 0 t

/-- Whether every byte of the text belongs to a character. -/
def isUtf8 (t : Text) : Bool :=
  t.glyphs.all fun
    | .char _ => true
    | .stray _ => false

/-- The text with every stray byte replaced by the replacement character U+FFFD. -/
def repaired (t : Text) : Text :=
  t.glyphs.flatMap fun
    | .char c => (Glyph.char c).bytes
    | .stray _ => [0xEF, 0xBF, 0xBD]

/-- The text filled up with blanks on the right to `width` glyphs; a longer text stays whole. -/
def padRight (width : Nat) (t : Text) : Text :=
  t ++ List.replicate (width - t.glyphs.length) blank

end Text

end SicXe
