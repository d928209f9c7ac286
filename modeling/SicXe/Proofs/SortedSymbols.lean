import SicXe.Proofs.LayoutStep
import SicXe.Proofs.SymbolFiles

/-!
# Sorted symbol tables

The labels of a table are listed by address and, at one address, by their bytes. As no label has two
addresses, this order is strict, and only one list of the labels is in it. The list thus depends on
the content of a table alone, and not on the order in which its entries came or are held:

* `SymbolTable.Precedes`, `SymbolTable.before_iff`: the order, and the comparison of the sort.
* `SymbolTable.Listed`: each label of a table once, in strictly ascending order.
* `SymbolTable.Distinct.listed_labels`, `SymbolTable.Listed.eq_of_get?`: the sorted labels are such
  a list, and tables with the same content have no two of them.
* `TableOperation.run`: tables that labels are defined in, and that are reset and copied.
-/

namespace SicXe

namespace Text

theorem precedes_iff {s t : Text} : s.precedes t = true ↔ s < t := by
  induction s generalizing t with
  | nil => cases t <;> simp [precedes]
  | cons a s ih =>
    cases t with
    | nil => simp [precedes]
    | cons b t =>
      simp [precedes, ih, List.cons_lt_cons_iff, UInt8.lt_iff_toNat_lt]

end Text

namespace SymbolTable

variable {table table' : SymbolTable} {labels labels' : List Text}

/-! ## The order -/

/-- The order of labels with their addresses: by address, then by the bytes of the label. -/
def Precedes (a b : Text × UInt32) : Prop := a.2 < b.2 ∨ a.2 = b.2 ∧ a.1 < b.1

theorem Precedes.trans {a b c : Text × UInt32} (h : Precedes a b) (h' : Precedes b c) :
    Precedes a c := by
  rcases h with h | ⟨heq, h⟩
  · rcases h' with h' | ⟨heq', -⟩
    · exact .inl (UInt32.lt_trans h h')
    · exact .inl (heq' ▸ h)
  · rcases h' with h' | ⟨heq', h'⟩
    · exact .inl (heq ▸ h')
    · exact .inr ⟨heq.trans heq', List.lt_trans h h'⟩

theorem not_precedes_self (a : Text × UInt32) : ¬ Precedes a a := by
  rintro (h | ⟨-, h⟩)
  · exact UInt32.lt_irrefl _ h
  · exact List.lt_irrefl _ h

theorem precedes_trichotomy (a b : Text × UInt32) : Precedes a b ∨ a = b ∨ Precedes b a := by
  rcases Std.lt_trichotomy a.2 b.2 with h | h | h
  · exact .inl (.inl h)
  · rcases Std.lt_trichotomy a.1 b.1 with h' | h' | h'
    · exact .inl (.inr ⟨h, h'⟩)
    · exact .inr (.inl (Prod.ext h' h))
    · exact .inr (.inr (.inr ⟨h.symm, h'⟩))
  · exact .inr (.inr (.inl h))

/-- The comparison of the sort tells whether an entry is at or before another. -/
theorem before_iff {a b : Text × UInt32} : before a b = true ↔ Precedes a b ∨ a = b := by
  have hbefore : before a b = true ↔ a.2 < b.2 ∨ a.2 = b.2 ∧ ¬ b.1 < a.1 := by
    rw [← Text.precedes_iff, Bool.not_eq_true]
    simp [before, UInt32.lt_iff_toNat_lt]
  rw [hbefore]
  constructor
  · rintro (h | ⟨haddress, h⟩)
    · exact .inl (.inl h)
    · rcases Std.lt_trichotomy a.1 b.1 with h' | h' | h'
      · exact .inl (.inr ⟨haddress, h'⟩)
      · exact .inr (Prod.ext h' haddress)
      · exact absurd h' h
  · rintro ((h | ⟨haddress, h⟩) | rfl)
    · exact .inl h
    · exact .inr ⟨haddress, List.lt_asymm h⟩
    · exact .inr ⟨rfl, List.lt_irrefl _⟩

theorem before_trans (a b c : Text × UInt32) (h : before a b = true) (h' : before b c = true) :
    before a c = true := by
  rw [before_iff] at *
  rcases h with h | rfl
  · rcases h' with h' | rfl
    · exact .inl (h.trans h')
    · exact .inl h
  · exact h'

theorem before_total (a b : Text × UInt32) : (before a b || before b a) = true := by
  rw [Bool.or_eq_true, before_iff, before_iff]
  rcases precedes_trichotomy a b with h | h | h
  · exact .inl (.inl h)
  · exact .inl (.inr h)
  · exact .inr (.inl h)

/-! ## The list -/

/-- A list of the labels of a table: each of them once, in strictly ascending order. -/
structure Listed (table : SymbolTable) (labels : List Text) : Prop where
  nodup : labels.Nodup
  mem_iff : ∀ label, label ∈ labels ↔ (table.get? label).isSome = true
  ascending : labels.Pairwise fun a b => ∃ x y,
    table.get? a = some x ∧ table.get? b = some y ∧ Precedes (a, x) (b, y)

theorem perm_sorted (table : SymbolTable) : table.sorted.Perm table.entries :=
  List.mergeSort_perm _ _

/-- The entries of a sorted table ascend strictly, since no two of them have the same label. -/
theorem Distinct.pairwise_sorted (h : table.Distinct) : table.sorted.Pairwise Precedes := by
  have hsorted : table.sorted.Pairwise fun a b => before a b = true :=
    List.pairwise_mergeSort before_trans before_total table.entries
  have hnodup : table.sorted.Nodup := (perm_sorted table).nodup_iff.2 (List.Nodup.of_map _ h)
  refine hsorted.imp₂ ?_ hnodup
  intro a b hbefore hne
  exact (before_iff.1 hbefore).resolve_right hne

/-- **The sorted labels** are a list of the labels. -/
theorem Distinct.listed_labels (h : table.Distinct) : table.Listed table.labels := by
  have hget {entry : Text × UInt32} (hentry : entry ∈ table.sorted) :
      table.get? entry.1 = some entry.2 :=
    h.get?_eq_some_iff.2 ((perm_sorted table).mem_iff.1 hentry)
  refine ⟨((perm_sorted table).map _).nodup_iff.2 h, ?_, ?_⟩
  · intro label
    rw [Option.isSome_iff_exists]
    constructor
    · intro hlabel
      obtain ⟨entry, hentry, rfl⟩ := List.mem_map.1 hlabel
      exact ⟨_, hget hentry⟩
    · rintro ⟨address, haddress⟩
      exact List.mem_map.2 ⟨(label, address),
        (perm_sorted table).mem_iff.2 (h.get?_eq_some_iff.1 haddress), rfl⟩
  · rw [labels, List.pairwise_map]
    refine h.pairwise_sorted.imp_of_mem ?_
    intro a b ha hb hprecedes
    exact ⟨a.2, b.2, hget ha, hget hb, hprecedes⟩

/-- **There is one list**: tables with the same content have the same labels in the same order. -/
theorem Listed.eq_of_get? (h : table.Listed labels) (h' : table'.Listed labels')
    (hget : ∀ label, table.get? label = table'.get? label) : labels = labels' := by
  have hperm : labels.Perm labels' :=
    (List.perm_ext_iff_of_nodup h.nodup h'.nodup).2 fun label => by
      rw [h.mem_iff, h'.mem_iff, hget]
  have hascending := h'.ascending
  simp only [← hget] at hascending
  refine hperm.eq_of_pairwise ?_ h.ascending hascending
  -- no two labels precede each other
  rintro a b - - ⟨x, y, hx, hy, hprecedes⟩ ⟨y', x', hy', hx', hprecedes'⟩
  cases hx.symm.trans hx'
  cases hy.symm.trans hy'
  exact absurd (hprecedes.trans hprecedes') (not_precedes_self _)

/-! ## Tables that change -/

theorem not_mem_of_get?_eq_none {label : Text} (h : table.get? label = none) :
    label ∉ table.entries.map (·.1) := by
  intro hlabel
  obtain ⟨entry, hentry, rfl⟩ := List.mem_map.1 hlabel
  have hnone := List.find?_eq_none.1 (Option.map_eq_none_iff.1 h) entry hentry
  simp at hnone

theorem Distinct.define? (h : table.Distinct) {label : Text} {address : UInt32}
    (hdefine : table.define? label address = some table') : table'.Distinct := by
  unfold SymbolTable.define? at hdefine
  cases hget : table.get? label with
  | some _ =>
    rw [hget] at hdefine
    cases hdefine
  | none =>
    rw [hget] at hdefine
    cases hdefine
    have hnew := not_mem_of_get?_eq_none hget
    rw [Distinct, List.map_append, List.map_singleton]
    refine List.nodup_append.2 ⟨h, List.nodup_singleton _, ?_⟩
    rintro other hother _ hlabel rfl
    obtain rfl : other = label := List.mem_singleton.1 hlabel
    exact hnew hother

theorem distinct_cleared (table : SymbolTable) : table.cleared.Distinct := by
  rw [cleared_eq_empty]
  exact List.nodup_nil

end SymbolTable

/-- What is done with the tables that there are, each known by its number. -/
inductive TableOperation where
  /-- A label is defined in a table. If the table has it already, nothing changes. -/
  | define (number : Nat) (label : Text) (address : UInt32)
  /-- A table is cleared. -/
  | reset (number : Nat)
  /-- A table is copied, and the copy is the last table. -/
  | clone (number : Nat)
  deriving DecidableEq, Repr

namespace TableOperation

/-- The tables after an operation. -/
def apply (tables : List SymbolTable) : TableOperation → List SymbolTable
  | .define number label address =>
    tables.modify number fun table => (table.define? label address).getD table
  | .reset number => tables.modify number SymbolTable.cleared
  | .clone number => tables ++ tables[number]?.toList

/-- The tables after operations, one after the other. -/
def run (tables : List SymbolTable) (operations : List TableOperation) : List SymbolTable :=
  operations.foldl apply tables

variable {tables : List SymbolTable}

theorem forall_mem_modify {p : SymbolTable → Prop} {f : SymbolTable → SymbolTable}
    (h : ∀ table ∈ tables, p table) (hf : ∀ table, p table → p (f table)) (number : Nat) :
    ∀ table ∈ tables.modify number f, p table := by
  intro table htable
  obtain ⟨i, hi⟩ := List.mem_iff_getElem?.1 htable
  rw [List.getElem?_modify] at hi
  obtain ⟨before, hbefore, rfl⟩ := Option.map_eq_some_iff.1 hi
  have hp := h before (List.mem_of_getElem? hbefore)
  split
  · exact hf _ hp
  · exact hp

theorem distinct_apply (h : ∀ table ∈ tables, table.Distinct) (operation : TableOperation) :
    ∀ table ∈ operation.apply tables, table.Distinct := by
  cases operation with
  | define number label address =>
    refine forall_mem_modify h ?_ number
    intro table htable
    cases hdefine : table.define? label address with
    | none => exact htable
    | some table' => exact htable.define? hdefine
  | reset number => exact forall_mem_modify h (fun table _ => table.distinct_cleared) number
  | clone number =>
    intro table htable
    rcases List.mem_append.1 htable with htable | htable
    · exact h table htable
    · exact h table (List.mem_of_getElem? (Option.mem_toList.1 htable))

/-- **No label has two addresses** in a table that operations lead to. -/
theorem distinct_run (h : ∀ table ∈ tables, table.Distinct) (operations : List TableOperation) :
    ∀ table ∈ run tables operations, table.Distinct := by
  induction operations generalizing tables with
  | nil => exact h
  | cons operation operations ih => exact ih (distinct_apply h operation)

end TableOperation

/-- **The labels of a table are listed in one order.** The sorted labels of every table are each of
its labels once, strictly ascending by address and then by bytes, and no other list is. Whatever
operations lead to two tables with the same addresses for the same labels, they have the same sorted
labels. -/
theorem SymbolTable.labels_canonical :
    (∀ table : SymbolTable, table.Distinct →
      table.Listed table.labels ∧ ∀ labels, table.Listed labels → labels = table.labels) ∧
    ∀ (tables tables' : List SymbolTable) (operations operations' : List TableOperation),
      (∀ table ∈ tables ++ tables', table.Distinct) →
      ∀ table ∈ TableOperation.run tables operations,
      ∀ table' ∈ TableOperation.run tables' operations',
        (∀ label, table.get? label = table'.get? label) → table.labels = table'.labels := by
  refine ⟨fun table h => ⟨h.listed_labels, fun labels hlabels => ?_⟩, ?_⟩
  · exact hlabels.eq_of_get? h.listed_labels fun _ => rfl
  · intro tables tables' operations operations' hstart table htable table' htable' hget
    rw [List.forall_mem_append] at hstart
    have hdistinct := TableOperation.distinct_run hstart.1 operations table htable
    have hdistinct' := TableOperation.distinct_run hstart.2 operations' table' htable'
    exact hdistinct.listed_labels.eq_of_get? hdistinct'.listed_labels hget

/-- Two labels at one address: defined in a table that had others before, the second of them twice,
and defined in the other order, the last one in a copy. -/
theorem SymbolTable.labels_canonical_copy :
    ⟨[("B", 3), ("A", 3)]⟩ ∈ TableOperation.run [.empty]
      [.define 0 "C" 1, .reset 0, .define 0 "B" 3, .define 0 "A" 3, .define 0 "A" 9] ∧
    ⟨[("A", 3), ("B", 3)]⟩ ∈ TableOperation.run [.empty]
      [.define 0 "A" 3, .clone 0, .define 1 "B" 3] ∧
    SymbolTable.Listed ⟨[("B", 3), ("A", 3)]⟩ (labels ⟨[("B", 3), ("A", 3)]⟩) ∧
    labels ⟨[("B", 3), ("A", 3)]⟩ = labels ⟨[("A", 3), ("B", 3)]⟩ := by
  have hfirst : ⟨[("B", 3), ("A", 3)]⟩ ∈ TableOperation.run [.empty]
      [.define 0 "C" 1, .reset 0, .define 0 "B" 3, .define 0 "A" 3, .define 0 "A" 9] := by decide
  have hsecond : ⟨[("A", 3), ("B", 3)]⟩ ∈ TableOperation.run [.empty]
      [.define 0 "A" 3, .clone 0, .define 1 "B" 3] := by decide
  have hdistinct : Distinct ⟨[("A", 3), ("B", 3)]⟩ := by decide
  refine ⟨hfirst, hsecond, (labels_canonical.1 _ (by decide)).1, ?_⟩
  refine labels_canonical.2 _ _ _ _ (by decide) _ hfirst _ hsecond fun label => ?_
  exact hdistinct.get?_perm (List.Perm.swap _ _ _) label

end SicXe
