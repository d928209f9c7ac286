import SicXe.Text.Basic

/-!
# Symbol tables

A symbol table assigns an address to each label. The first definition of a label counts.
`SymbolTable.sorted` lists the labels by address and, at one address, by their bytes.
-/

namespace SicXe

/-- Labels with their addresses, in the order of definition. -/
structure SymbolTable where
  entries : List (Text × UInt32) := []
  deriving DecidableEq, Repr

namespace SymbolTable

/-- The table without labels. -/
def empty : SymbolTable := {}

/-- The address of a label. -/
def get? (table : SymbolTable) (label : Text) : Option UInt32 :=
  (table.entries.find? (·.1 == label)).map (·.2)

/-- The table with a new label at the end, unless it has the label already. -/
def define? (table : SymbolTable) (label : Text) (address : UInt32) : Option SymbolTable :=
  match table.get? label with
  | some _ => none
  | none => some { entries := table.entries ++ [(label, address)] }

/-- The table in which the label has the given address, whatever it had before. -/
def insert (table : SymbolTable) (label : Text) (address : UInt32) : SymbolTable :=
  { entries := table.entries.filter (·.1 != label) ++ [(label, address)] }

/-- The table without a label. -/
def erase (table : SymbolTable) (label : Text) : SymbolTable :=
  { entries := table.entries.filter (·.1 != label) }

/-- The table with every label it has taken out, one after the other. -/
def cleared (table : SymbolTable) : SymbolTable :=
  table.entries.foldl (fun rest entry => rest.erase entry.1) table

/-- The table of pairs, of which a later one with the same label counts. -/
def ofList (entries : List (Text × UInt32)) : SymbolTable :=
  entries.foldl (fun table entry => table.insert entry.1 entry.2) empty

/-- The number of labels. -/
def size (table : SymbolTable) : Nat := table.entries.length

/-- The order of the sorted table: by address, then by the label's bytes. -/
def before (a b : Text × UInt32) : Bool :=
  a.2.toNat < b.2.toNat || (a.2 == b.2 && !b.1.precedes a.1)

/-- The labels with their addresses in ascending order. -/
def sorted (table : SymbolTable) : List (Text × UInt32) := table.entries.mergeSort before

/-- The labels in ascending order of their addresses. -/
def labels (table : SymbolTable) : List Text := table.sorted.map (·.1)

end SymbolTable

end SicXe
