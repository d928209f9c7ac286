import SicXe.Report.Basic

/-!
# Object programs

An absolute object program has a header record with name, start and length, text records that carry
the object bytes with their addresses, and an end record with the entry point. A text record carries
at most 30 bytes and is cut at every gap, such as reserved storage.
-/

namespace SicXe

/-- A run of object bytes. -/
structure TextRecord where
  start : UInt32
  data : Text
  deriving DecidableEq, Repr

namespace TextRecord

/-- The most bytes of a text record. -/
def capacity : Nat := 30

/-- The address after the last byte. -/
def stop (record : TextRecord) : UInt32 := record.start + UInt32.ofNat record.data.length

/-- The text record as written. -/
def render (record : TextRecord) : Text :=
  0x54 :: Numeral.hex 6 record.start.toNat ++ Numeral.hex 2 record.data.length ++
    Numeral.hexBytes record.data ++ [Text.lineFeed]

end TextRecord

/-- Text records under construction: those that are complete, and the one that may grow. -/
structure TextDeck where
  complete : Array TextRecord := #[]
  current : Option TextRecord := none

namespace TextDeck

/-- The deck with the growing record completed. -/
def cut (deck : TextDeck) : TextDeck :=
  { complete := deck.complete ++ deck.current.toArray, current := none }

/-- One byte: it joins the growing record if that has room and ends right before it. -/
def pushByte (deck : TextDeck) (address : UInt32) (b : UInt8) : TextDeck :=
  match deck.current with
  | some record =>
    if record.stop = address ∧ record.data.length ≠ TextRecord.capacity then
      { deck with current := some { record with data := record.data ++ [b] } }
    else { deck.cut with current := some { start := address, data := [b] } }
  | none => { deck with current := some { start := address, data := [b] } }

/-- Bytes at consecutive addresses. -/
def pushBytes (deck : TextDeck) : (address : UInt32) → Text → TextDeck
  | _, [] => deck
  | address, b :: rest => (deck.pushByte address b).pushBytes (address + 1) rest

/-- One line: storage without bytes cuts the growing record. -/
def pushLine (deck : TextDeck) (line : Report.Line) : TextDeck :=
  if line.object = [] then
    if 0 < line.width then deck.cut else deck
  else deck.pushBytes line.address line.object

end TextDeck

/-- The text records of lines. -/
def textRecords (lines : List Report.Line) : List TextRecord :=
  (lines.foldl TextDeck.pushLine {}).cut.complete.toList

namespace ObjectProgram

/-- The header record. The name is cut after six bytes and filled up to six glyphs. -/
def header (name : Text) (start length : UInt32) : Text :=
  0x48 :: Text.padRight 6 (name.take Statement.maxLabel) ++ Numeral.hex 6 start.toNat ++
    Numeral.hex 6 length.toNat ++ [Text.lineFeed]

/-- The end record. -/
def finish (entry : UInt32) : Text := 0x45 :: Numeral.hex 6 entry.toNat ++ [Text.lineFeed]

end ObjectProgram

/-- The object program of a program without faults. -/
def Report.objectProgram (report : Report) : Except Refusal Text :=
  if report.errorFree ∧ report.messages = [] then
    .ok (ObjectProgram.header report.name report.start report.length ++
      (textRecords report.lines).flatMap TextRecord.render ++ ObjectProgram.finish report.entry)
  else .error .objectProgram

end SicXe
