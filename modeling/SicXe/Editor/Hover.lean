import SicXe.Editor.Document

/-!
# Hover texts

Pointing at a word of a document shows what it names: a label and its address, an instruction, a
directive or a register. Words are separated by blanks and commas; the marks of immediate and
indirect operands are no part of them.
-/

namespace SicXe.Editor

/-- A word of a line and where it stands, its end not included. -/
structure WordSpan where
  text : Text
  start : Int
  stop : Int
  deriving DecidableEq, Repr

/-- Whether a byte ends a word. -/
def isWordBreak (b : UInt8) : Bool := isFieldBreak b || b == Text.comma

/-- Whether a byte marks an immediate or indirect operand. -/
def isOperandMark (b : UInt8) : Bool := b == 0x23 || b == 0x40

/-- The word at a character of a line. Outside of the line and on a blank there is an empty one. At
a comma the word is the one before it. -/
def wordAt (line : Text) (character : Int) : WordSpan :=
  match itemAt? line character with
  | none => ⟨[], character, character⟩
  | some b =>
    if isFieldBreak b then ⟨[], character, character⟩
    else
      let column := character.toNat
      let before := ((line.take column).reverse.takeWhile (!isWordBreak ·)).reverse
      let behind := (line.drop column).takeWhile (!isWordBreak ·)
      let marked := before ++ behind
      let word := marked.dropWhile isOperandMark
      let stop := column + behind.length
      ⟨word, (stop : Int) - word.length, stop⟩

/-- What a word is shown as: its name in bold, then what it is. -/
def describe (name what : Text) : Text :=
  Text.ofString "**" ++ name ++ Text.ofString "**: " ++ what

/-- The description of a label. -/
def describeLabel (name : Text) (address : UInt32) : Text :=
  describe name
    (Text.ofString "label at `" ++ Numeral.hex 4 address.toNat ++ Text.ofString "`")

/-- The description of an instruction. -/
def describeOpcode (opcode : Opcode) : Text :=
  describe opcode.mnemonic
    (Text.ofString "opcode `" ++ Numeral.hex 2 opcode.code.toNat ++ Text.ofString "`, format " ++
      opcode.format.name ++ Text.ofString ", " ++ Numeral.decimal opcode.format.width.toNat ++
      Text.ofString " bytes")

/-- The description of a word: as a label of the program, else as an instruction of the machine, a
directive or a register. -/
def description? (word : Text) (assembly : Option Assembly) (mode : Mode) : Option Text :=
  if word = [] then none
  else match assembly.bind (·.symbols.get? word) with
    | some address => some (describeLabel word address)
    | none =>
      match mode.opcode? word with
      | some opcode => some (describeOpcode opcode)
      | none =>
        match Directive.ofKeyword? word with
        | some directive => some (describe word directive.help)
        | none => (register? word).map fun number =>
            describe word (Text.ofString "register " ++ Numeral.decimal number.toNat)

/-- The description of what stands at a place of a document, and its span. -/
def Document.hover? (mode : Mode) (document : Document) (place : Place) : Option (Text × Span) :=
  match itemAt? (document.text.split Text.lineFeed) place.line with
  | none => none
  | some line =>
    let word := wordAt line place.character
    (description? word.text document.assembly mode).map fun text =>
      (text, ⟨⟨place.line, word.start⟩, ⟨place.line, word.stop⟩⟩)

end SicXe.Editor
