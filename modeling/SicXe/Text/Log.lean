import SicXe.Text.Basic

/-!
# Log lines

A log entry is written behind the name of what writes it and ends with a line feed.
-/

namespace SicXe.Text

/-- A log entry behind a name; an entry that ends with a line feed gets no second one. -/
def logEntry (name entry : Text) : Text :=
  if entry.getLast? = some lineFeed then name ++ entry else name ++ entry ++ [lineFeed]

end SicXe.Text
