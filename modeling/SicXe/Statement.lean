import SicXe.Text.Blank

/-!
# Statements

A line of source is a comment, which begins with a period or holds nothing, or a statement of one to
three fields. One field is a mnemonic; two are a mnemonic and its operand; three are a label, a
mnemonic and an operand. A label counts only with its first six bytes.
-/

namespace SicXe

/-- The fields of a statement; an absent field is empty. -/
structure Statement where
  label : Text := []
  mnemonic : Text := []
  operand : Text := []
  deriving DecidableEq, Repr

namespace Statement

/-- The most bytes of a label. -/
def maxLabel : Nat := 6

/-- The most fields of a line. -/
def maxFields : Nat := 3

/-- The statement that fields make; fields after the third are left aside. -/
def ofFields : List Text → Statement
  | [] => {}
  | [mnemonic] => { mnemonic }
  | [mnemonic, operand] => { mnemonic, operand }
  | label :: mnemonic :: operand :: _ => { label := label.take maxLabel, mnemonic, operand }

/-- The statement on a line. -/
def ofLine (line : Text) : Statement := ofFields line.fields

end Statement

/-- The byte that begins a comment. -/
def commentMarker : UInt8 := 0x2E

/-- Whether a line holds no statement: it is blank, or its first byte after blanks is a period. -/
def Text.isComment (line : Text) : Bool :=
  match line.trimStart with
  | [] => true
  | b :: _ => b == commentMarker

/-- Whether a byte is a letter of a name: an ASCII letter or the underscore. -/
def Text.isNameLetter (b : UInt8) : Bool :=
  (0x41 ≤ b.toNat && b.toNat ≤ 0x5A) || (0x61 ≤ b.toNat && b.toNat ≤ 0x7A) || b == 0x5F

/-- Whether a byte is a decimal digit. -/
def Text.isNameDigit (b : UInt8) : Bool := 0x30 ≤ b.toNat && b.toNat ≤ 0x39

/-- Whether a text can be a label in an operand: letters, digits and underscores, and no digit at
the front. -/
def Text.isSymbolName : Text → Bool
  | [] => false
  | b :: t => isNameLetter b && t.all fun c => isNameLetter c || isNameDigit c

/-- The column, counted from 1 in bytes, where the text of a field first occurs in a line. An empty
or absent field counts as column 1. -/
def Text.columnOf (line field : Text) : Nat :=
  if field = [] then 1 else (Text.offset? field line).elim 1 (· + 1)

end SicXe
