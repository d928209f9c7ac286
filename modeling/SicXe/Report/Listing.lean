import SicXe.Report.Basic

/-!
# Listings

A listing shows each line of source with its address and the faults below it, between a summary and,
for a program without faults, a closing line. An object listing shows the object code too, and
exists only for a program whose layout found no fault.
-/

namespace SicXe

namespace Listing

/-- The four columns in front of the object code. -/
def columns (location label mnemonic operand : Text) : Text :=
  location.padRight 9 ++ label.padRight 9 ++ mnemonic.padRight 9 ++ operand.padRight 12

/-- The heading above the lines, with an empty line below it. -/
def heading (last : Text) : Text :=
  columns "Loc" "Label" "Mnemonic" "Operand" ++ last ++ [Text.lineFeed, Text.lineFeed]

/-- The line below a statement for one of its messages, of which it shows the first line. -/
def marker (message : Text) : Text :=
  Text.ofString ". !!! " ++ message.firstLine ++ [Text.lineFeed]

/-- A comment behind an empty first column, without blanks and tabs at its end. -/
def comment (source : Text) : Text :=
  Text.padRight 9 [] ++ source.trimEnd (fun b => b == Text.blank || b == Text.tab) ++
    [Text.lineFeed]

/-- A statement with its object code if wanted, without blanks at its end. -/
def statement (line : Report.Line) (withObject : Bool) : Text :=
  let { label, mnemonic, operand } := line.statement
  let row := columns (Numeral.hex 4 line.address.toNat) label mnemonic operand ++
    if withObject then Numeral.hexBytes line.object else []
  row.trimEnd (· == Text.blank) ++ [Text.lineFeed]

/-- A line, with its messages below it. -/
def line (withObject : Bool) (line : Report.Line) : Text :=
  if line.isComment then comment line.source
  else statement line withObject ++ line.messages.flatMap marker

/-- The first line of a listing. -/
def summary (faults : Nat) : Text :=
  if faults = 0 then Text.ofString ". No errors detected\n"
  else Text.ofString ". " ++ Numeral.decimal faults ++ Text.ofString " error(s) detected\n"

/-- The last line of a listing, which only a program without faults has. -/
def closing (faults : Nat) : Text :=
  if faults = 0 then Text.ofString "...No errors detected...\n" else []

end Listing

namespace Report

/-- The listing. -/
def listing (report : Report) : Text :=
  let faults := report.messages.length
  Listing.summary faults ++ Listing.heading [] ++ report.lines.flatMap (Listing.line false) ++
    Listing.closing faults

/-- The object listing of a program whose layout found no fault. -/
def objectListing (report : Report) : Except Refusal Text :=
  if report.errorFree then
    .ok (Listing.heading "Object" ++ report.lines.flatMap (Listing.line true))
  else .error .objectListing

end Report

end SicXe
