import SicXe.Report.ObjectProgram

/-!
# Bytes and the text records that carry them

* `cells`: bytes together with their addresses.
* `cells_textRecords`: text records carry the bytes of the lines at their addresses, in order.
* `length_of_mem_textRecords`: a text record has at least one byte and at most thirty.
* `TextDeck.Chunked`, `TextDeck.chunked_pushLine`: the bytes of a line, as many at a time as a
  record has room for. This ends and makes the same records.
-/

namespace SicXe

/-- Bytes from an address on, each with its own address. -/
def cells : (address : UInt32) → Text → List (UInt32 × UInt8)
  | _, [] => []
  | address, b :: data => (address, b) :: cells (address + 1) data

theorem add_ofNat_succ (address : UInt32) (j : Nat) :
    address + UInt32.ofNat (j + 1) = address + 1 + UInt32.ofNat j := by
  rw [UInt32.ofNat_add, UInt32.add_comm (UInt32.ofNat j), ← UInt32.add_assoc]
  rfl

theorem cells_append : ∀ (address : UInt32) (data rest : Text),
    cells address (data ++ rest) =
      cells address data ++ cells (address + UInt32.ofNat data.length) rest
  | address, [], rest => by
    rw [List.nil_append, cells, List.nil_append]
    exact congrArg (cells · rest) (UInt32.add_zero address).symm
  | address, b :: data, rest => by
    rw [List.cons_append, cells, cells_append, cells, List.length_cons, add_ofNat_succ,
      List.cons_append]

theorem mem_cells_iff {c : UInt32 × UInt8} : ∀ {address : UInt32} {data : Text},
    c ∈ cells address data ↔
      ∃ j : Nat, c.1 = address + UInt32.ofNat j ∧ data[j]? = some c.2
  | address, [] => by simp [cells]
  | address, b :: data => by
    rw [cells, List.mem_cons, mem_cells_iff]
    constructor
    · rintro (rfl | ⟨j, haddress, hdata⟩)
      · exact ⟨0, (UInt32.add_zero address).symm, rfl⟩
      · exact ⟨j + 1, by rw [haddress, add_ofNat_succ], by simpa using hdata⟩
    · rintro ⟨_ | j, haddress, hdata⟩
      · left
        rw [List.getElem?_cons_zero, Option.some.injEq] at hdata
        exact Prod.ext (haddress.trans (UInt32.add_zero address)) hdata.symm
      · exact .inr ⟨j, by rw [haddress, add_ofNat_succ], by simpa using hdata⟩

/-- The bytes of a text record with their addresses. -/
def TextRecord.cells (record : TextRecord) : List (UInt32 × UInt8) :=
  SicXe.cells record.start record.data

/-- The object bytes of a line with their addresses. -/
def Report.Line.cells (line : Report.Line) : List (UInt32 × UInt8) :=
  SicXe.cells line.address line.object

namespace TextDeck

/-- All text records of a deck, the growing one last. -/
def records (deck : TextDeck) : List TextRecord := deck.complete.toList ++ deck.current.toList

/-- A deck that carries the given bytes, in records that are neither empty nor too long. -/
structure Carries (deck : TextDeck) (carried : List (UInt32 × UInt8)) : Prop where
  cells : deck.records.flatMap TextRecord.cells = carried
  sizes : ∀ record ∈ deck.records,
    record.data ≠ [] ∧ record.data.length ≤ TextRecord.capacity

variable {deck : TextDeck} {carried : List (UInt32 × UInt8)}

theorem records_cut (deck : TextDeck) : deck.cut.records = deck.records := by
  rw [records, records, cut]
  cases deck.current <;> simp

theorem Carries.cut (h : Carries deck carried) : Carries deck.cut carried :=
  ⟨by rw [records_cut]; exact h.cells, by rw [records_cut]; exact h.sizes⟩

/-- A further record of one byte. -/
theorem Carries.fresh (h : Carries deck carried) {next : TextDeck} {address : UInt32} {b : UInt8}
    (hnext : next.records = deck.records ++ [⟨address, [b]⟩]) :
    Carries next (carried ++ [(address, b)]) := by
  constructor
  · rw [hnext, List.flatMap_append, h.cells]
    rfl
  · intro record hm
    rw [hnext, List.mem_append, List.mem_singleton] at hm
    rcases hm with hm | rfl
    · exact h.sizes record hm
    · exact ⟨List.cons_ne_nil _ _, show 1 ≤ 30 by decide⟩

/-- One more byte in the growing record. -/
theorem Carries.grow {record : TextRecord} (hcurrent : deck.current = some record)
    (h : Carries deck carried) {address : UInt32} {b : UInt8} (hstop : record.stop = address)
    (hroom : record.data.length ≠ TextRecord.capacity) :
    Carries { deck with current := some { record with data := record.data ++ [b] } }
      (carried ++ [(address, b)]) := by
  obtain ⟨hcells, hsizes⟩ := h
  rw [records, hcurrent, Option.toList_some] at hcells hsizes
  have hlast := (hsizes record (by simp)).2
  constructor
  · rw [records, Option.toList_some, List.flatMap_append, List.flatMap_singleton, TextRecord.cells,
      cells_append, ← hcells, List.flatMap_append, List.flatMap_singleton, List.append_assoc,
      ← hstop]
    rfl
  · intro other hm
    rw [records, Option.toList_some, List.mem_append, List.mem_singleton] at hm
    rcases hm with hm | rfl
    · exact hsizes other (List.mem_append_left _ hm)
    · refine ⟨by simp, ?_⟩
      rw [List.length_append, List.length_singleton]
      omega

theorem Carries.pushByte (h : Carries deck carried) (address : UInt32) (b : UInt8) :
    Carries (deck.pushByte address b) (carried ++ [(address, b)]) := by
  unfold TextDeck.pushByte
  split
  case h_1 record hcurrent =>
    split
    case isTrue hjoin => exact h.grow hcurrent hjoin.1 hjoin.2
    case isFalse => exact h.cut.fresh (by simp [records, TextDeck.cut])
  case h_2 hcurrent => exact h.fresh (by simp [records, hcurrent])

theorem Carries.pushBytes : ∀ {data : Text} {deck : TextDeck} {carried : List (UInt32 × UInt8)}
    (_ : Carries deck carried) (address : UInt32),
    Carries (deck.pushBytes address data) (carried ++ SicXe.cells address data)
  | [], deck, carried, h, address => by rwa [SicXe.cells, List.append_nil]
  | b :: data, deck, carried, h, address => by
    rw [SicXe.cells, List.append_cons]
    exact (h.pushByte address b).pushBytes (address + 1)

theorem Carries.pushLine (h : Carries deck carried) (line : Report.Line) :
    Carries (deck.pushLine line) (carried ++ line.cells) := by
  unfold TextDeck.pushLine
  split
  case isTrue hempty =>
    rw [Report.Line.cells, hempty, SicXe.cells, List.append_nil]
    split
    · exact h.cut
    · exact h
  case isFalse => exact h.pushBytes line.address

theorem Carries.pushLines : ∀ {lines : List Report.Line} {deck : TextDeck}
    {carried : List (UInt32 × UInt8)}, Carries deck carried →
    Carries (lines.foldl TextDeck.pushLine deck) (carried ++ lines.flatMap Report.Line.cells)
  | [], deck, carried, h => by rwa [List.flatMap_nil, List.append_nil]
  | line :: lines, deck, carried, h => by
    rw [List.flatMap_cons, ← List.append_assoc]
    exact (h.pushLine line).pushLines

end TextDeck

theorem carries_textRecords (lines : List Report.Line) :
    TextDeck.Carries (lines.foldl TextDeck.pushLine {}).cut (lines.flatMap Report.Line.cells) := by
  have hempty : TextDeck.Carries {} [] := ⟨rfl, nofun⟩
  exact hempty.pushLines.cut

theorem records_textRecords (lines : List Report.Line) :
    (lines.foldl TextDeck.pushLine {}).cut.records = textRecords lines :=
  List.append_nil _

/-- **Text records carry the bytes of the lines.** -/
theorem cells_textRecords (lines : List Report.Line) :
    (textRecords lines).flatMap TextRecord.cells = lines.flatMap Report.Line.cells := by
  rw [← records_textRecords]
  exact (carries_textRecords lines).cells

theorem length_of_mem_textRecords {lines : List Report.Line} {record : TextRecord}
    (h : record ∈ textRecords lines) :
    record.data ≠ [] ∧ record.data.length ≤ TextRecord.capacity := by
  rw [← records_textRecords] at h
  exact (carries_textRecords lines).sizes record h

/-! ## Several bytes at a time -/

namespace TextDeck

/-- The records in front of a byte at the address, and the one that takes it: the growing record if
that has room and ends right before it, or else a new one. -/
def opened (deck : TextDeck) (address : UInt32) : Array TextRecord × TextRecord :=
  match deck.current with
  | some record =>
    if record.stop = address ∧ record.data.length ≠ TextRecord.capacity then
      (deck.complete, record)
    else (deck.cut.complete, { start := address, data := [] })
  | none => (deck.complete, { start := address, data := [] })

/-- How many of the bytes from an address on one record takes. -/
def chunkSize (deck : TextDeck) (address : UInt32) (data : Text) : Nat :=
  min (TextRecord.capacity - (deck.opened address).2.data.length) data.length

/-- As many of the bytes from an address on as one record takes. -/
def pushChunk (deck : TextDeck) (address : UInt32) (data : Text) : TextDeck :=
  let record := (deck.opened address).2
  { complete := (deck.opened address).1
    current := some { record with
      data := record.data ++ data.take (deck.chunkSize address data) } }

/-- Chunk after chunk until no byte is left. -/
inductive Chunked : TextDeck → (address : UInt32) → (data : Text) → (after : TextDeck) → Prop
  | done (deck : TextDeck) (address : UInt32) : Chunked deck address [] deck
  | chunk {deck after : TextDeck} {address : UInt32} {data : Text} (left : data ≠ [])
    (rest : Chunked (deck.pushChunk address data)
      (address + UInt32.ofNat (deck.chunkSize address data))
      (data.drop (deck.chunkSize address data)) after) : Chunked deck address data after

/-- The growing record is not too long. -/
def Bounded (deck : TextDeck) : Prop :=
  ∀ record ∈ deck.current, record.data.length ≤ TextRecord.capacity

variable {deck after : TextDeck} {address : UInt32} {data : Text}

theorem pushByte_eq_opened (deck : TextDeck) (address : UInt32) (b : UInt8) :
    deck.pushByte address b =
      { complete := (deck.opened address).1
        current := some { (deck.opened address).2 with
          data := (deck.opened address).2.data ++ [b] } } := by
  unfold pushByte
  cases hcurrent : deck.current with
  | none => simp [opened, hcurrent]
  | some record =>
    by_cases hjoin : record.stop = address ∧ record.data.length ≠ TextRecord.capacity
    · simp [opened, hcurrent, hjoin]
    · simp [opened, hcurrent, if_neg hjoin]

theorem stop_opened (deck : TextDeck) (address : UInt32) :
    (deck.opened address).2.stop = address := by
  unfold opened
  split
  · split
    · exact And.left ‹_›
    · exact UInt32.add_zero address
  · exact UInt32.add_zero address

/-- The record that takes a byte has room for it. -/
theorem Bounded.opened_lt (h : Bounded deck) (address : UInt32) :
    (deck.opened address).2.data.length < TextRecord.capacity := by
  unfold opened
  split
  case h_1 record hcurrent =>
    split
    case isTrue hjoin => exact Nat.lt_of_le_of_ne (h record hcurrent) hjoin.2
    case isFalse => exact show 0 < 30 by decide
  case h_2 => exact show 0 < 30 by decide

theorem Bounded.chunkSize_pos (h : Bounded deck) (address : UInt32) (hne : data ≠ []) :
    0 < deck.chunkSize address data := by
  have hroom := h.opened_lt address
  have hlength := List.length_pos_iff.2 hne
  unfold chunkSize
  omega

theorem Bounded.pushChunk (h : Bounded deck) : Bounded (deck.pushChunk address data) := by
  have hroom := h.opened_lt address
  have hsize : deck.chunkSize address data ≤
    TextRecord.capacity - (deck.opened address).2.data.length := Nat.min_le_left _ _
  intro record hrecord
  obtain rfl := Option.some.inj hrecord
  simp only [List.length_append, List.length_take]
  omega

theorem stop_concat (record : TextRecord) (b : UInt8) :
    TextRecord.stop { record with data := record.data ++ [b] } = record.stop + 1 := by
  rw [TextRecord.stop, TextRecord.stop, List.length_append, List.length_singleton, UInt32.ofNat_add,
    ← UInt32.add_assoc]
  rfl

/-- Bytes that all have room in the growing record join it. -/
theorem pushBytes_of_room : ∀ {data : Text} {record : TextRecord} (complete : Array TextRecord),
    record.data.length + data.length ≤ TextRecord.capacity →
    pushBytes ⟨complete, some record⟩ record.stop data =
      ⟨complete, some { record with data := record.data ++ data }⟩
  | [], record, complete, _ => by rw [pushBytes, List.append_nil]
  | b :: data, record, complete, h => by
    rw [List.length_cons] at h
    have hstep : pushByte ⟨complete, some record⟩ record.stop b =
        ⟨complete, some { record with data := record.data ++ [b] }⟩ := by
      rw [pushByte]
      exact if_pos ⟨rfl, by omega⟩
    rw [pushBytes, hstep, ← stop_concat, pushBytes_of_room, List.append_assoc]
    · rfl
    · rw [List.length_append, List.length_singleton]
      omega

theorem pushBytes_append : ∀ (data rest : Text) (deck : TextDeck) (address : UInt32),
    deck.pushBytes address (data ++ rest) =
      (deck.pushBytes address data).pushBytes (address + UInt32.ofNat data.length) rest
  | [], rest, deck, address => by
    rw [List.nil_append, pushBytes]
    exact congrArg (deck.pushBytes · rest) (UInt32.add_zero address).symm
  | b :: data, rest, deck, address => by
    rw [List.cons_append, pushBytes, pushBytes, pushBytes_append, List.length_cons, add_ofNat_succ]

/-- **One chunk** is the bytes of the chunk one after the other. -/
theorem Bounded.pushChunk_eq (h : Bounded deck) (hne : data ≠ []) :
    deck.pushChunk address data =
      deck.pushBytes address (data.take (deck.chunkSize address data)) := by
  have hpos : 0 < deck.chunkSize address data := h.chunkSize_pos address hne
  have hsize : deck.chunkSize address data ≤
    TextRecord.capacity - (deck.opened address).2.data.length := Nat.min_le_left _ _
  have hroom := h.opened_lt address
  rw [TextDeck.pushChunk]
  generalize deck.chunkSize address data = n at hpos hsize ⊢
  obtain ⟨b, data, rfl⟩ := List.exists_cons_of_ne_nil hne
  obtain ⟨n, rfl⟩ := Nat.exists_eq_add_of_le' hpos
  have hstop : address + 1 = TextRecord.stop { (deck.opened address).2 with
      data := (deck.opened address).2.data ++ [b] } := by
    rw [stop_concat, stop_opened]
  rw [List.take_succ_cons, pushBytes, pushByte_eq_opened, hstop, pushBytes_of_room]
  · simp
  · simp only [List.length_append, List.length_singleton, List.length_take]
    omega

theorem Bounded.pushBytes_eq_chunk (h : Bounded deck) (hne : data ≠ []) :
    deck.pushBytes address data =
      (deck.pushChunk address data).pushBytes
        (address + UInt32.ofNat (deck.chunkSize address data))
        (data.drop (deck.chunkSize address data)) := by
  have hsize : deck.chunkSize address data ≤ data.length := Nat.min_le_right _ _
  have hsplit := pushBytes_append (data.take (deck.chunkSize address data))
    (data.drop (deck.chunkSize address data)) deck address
  rw [List.take_append_drop, List.length_take, Nat.min_eq_left hsize] at hsplit
  rw [hsplit, h.pushChunk_eq hne]

/-- **The loop ends**, with the bytes pushed one after the other. -/
theorem Bounded.chunked_iff (h : Bounded deck) :
    Chunked deck address data after ↔ after = deck.pushBytes address data := by
  constructor
  · intro hrun
    induction hrun with
    | done => rfl
    | @chunk deck after address data left _ ih =>
      rw [ih h.pushChunk, h.pushBytes_eq_chunk left]
  · rintro rfl
    -- every chunk leaves fewer bytes
    induction hn : data.length using Nat.strongRecOn generalizing deck address data with
    | ind n ih =>
      by_cases hne : data = []
      · rw [hne]
        exact .done deck address
      · have hpos := h.chunkSize_pos address hne
        have hlength := List.length_pos_iff.2 hne
        refine .chunk hne ?_
        rw [h.pushBytes_eq_chunk hne]
        exact ih _ (by rw [List.length_drop]; omega) h.pushChunk rfl

/-- **Text records are made chunk by chunk**: behind any lines, the loop over the bytes of a line
ends, and leaves what the line leaves. -/
theorem chunked_pushLine (front : List Report.Line) {line : Report.Line} (hne : line.object ≠ [])
    (after : TextDeck) :
    Chunked (front.foldl pushLine {}) line.address line.object after ↔
      after = (front.foldl pushLine {}).pushLine line := by
  have hempty : Carries {} [] := ⟨rfl, nofun⟩
  have hcarries : Carries (front.foldl pushLine {}) _ := hempty.pushLines
  have hbounded : Bounded (front.foldl pushLine {}) := fun record hrecord =>
    (hcarries.sizes record (by simp [records, Option.mem_def.1 hrecord])).2
  rw [hbounded.chunked_iff, pushLine, if_neg hne]

end TextDeck

end SicXe
