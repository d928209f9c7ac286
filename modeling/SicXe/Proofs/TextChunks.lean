import SicXe.Proofs.TextRecords

/-!
# Where text records are cut

Text records cut the object bytes of lines greedily: a byte joins the record of the byte before it
whenever it can. `IsChunking` says so without a look at how the records are made, and
`textRecords_eq_iff` that there is exactly one such list of records.

* `seat`: the record that carries a byte, and the byte's place in it.
* `numberedCells`: the object bytes with the numbers of their lines, and `Linked`: two of them that
  may stand in one record, unless that is full.
* `TextDeck.Joins`: the invariant, kept by each byte (`Joins.pushByte`), each line
  (`Joins.pushLine`) and so by all lines (`Joins.pushLines`). Storage without bytes completes the
  growing record, so it is `none` exactly if such storage came behind the last byte.
* `IsChunking.unique`: the places of all bytes, and with them the records, follow from the rule.
-/

namespace SicXe

/-! ## Places in records -/

/-- The number of the record that carries the `i`-th byte, and the place of that byte in it. -/
def seat : List TextRecord → (i : Nat) → Nat × Nat
  | [], i => (0, i)
  | record :: records, i =>
    if i < record.data.length then (0, i)
    else
      let (number, place) := seat records (i - record.data.length)
      (number + 1, place)

/-- The bytes of records. -/
def bytesIn (records : List TextRecord) : Text := records.flatMap TextRecord.data

theorem bytesIn_cons (record : TextRecord) (records : List TextRecord) :
    bytesIn (record :: records) = record.data ++ bytesIn records :=
  List.flatMap_cons

theorem bytesIn_append (records more : List TextRecord) :
    bytesIn (records ++ more) = bytesIn records ++ bytesIn more :=
  List.flatMap_append

theorem seat_cons_of_lt {record : TextRecord} {i : Nat} (h : i < record.data.length)
    (records : List TextRecord) : seat (record :: records) i = (0, i) := by
  rw [seat, if_pos h]

theorem seat_cons_add (record : TextRecord) (records : List TextRecord) (i : Nat) :
    seat (record :: records) (record.data.length + i) =
      ((seat records i).1 + 1, (seat records i).2) := by
  rw [seat, if_neg (by omega), Nat.add_sub_cancel_left]

/-- More records do not move the bytes before them. -/
theorem seat_append_of_lt (more : List TextRecord) : ∀ {records : List TextRecord} {i : Nat},
    i < (bytesIn records).length →
      seat (records ++ more) i = seat records i ∧ (seat records i).1 < records.length
  | [], i, h => absurd h (Nat.not_lt_zero i)
  | record :: records, i, h => by
    rw [List.cons_append]
    by_cases hi : i < record.data.length
    · rw [seat_cons_of_lt hi, seat_cons_of_lt hi]
      exact ⟨rfl, Nat.succ_pos _⟩
    · obtain ⟨j, rfl⟩ := Nat.exists_eq_add_of_le (Nat.le_of_not_lt hi)
      rw [bytesIn_cons, List.length_append] at h
      obtain ⟨heq, hlt⟩ := seat_append_of_lt more (show j < (bytesIn records).length by omega)
      rw [seat_cons_add, seat_cons_add, heq, List.length_cons]
      exact ⟨rfl, by omega⟩

theorem seat_append_add (more : List TextRecord) (i : Nat) : ∀ records : List TextRecord,
    seat (records ++ more) ((bytesIn records).length + i) =
      (records.length + (seat more i).1, (seat more i).2)
  | [] => by simp [bytesIn]
  | record :: records => by
    rw [bytesIn_cons, List.length_append, Nat.add_assoc, List.cons_append, seat_cons_add,
      seat_append_add more i records, List.length_cons]
    simp only [Prod.mk.injEq, and_true]
    omega

/-- The place of a byte of the last record. -/
theorem seat_last (records : List TextRecord) {record : TextRecord} {i : Nat}
    (h : i < record.data.length) :
    seat (records ++ [record]) ((bytesIn records).length + i) = (records.length, i) := by
  rw [seat_append_add, seat_cons_of_lt h, Nat.add_zero]

/-- A byte more in the last record does not move the bytes before it. -/
theorem seat_grow (records : List TextRecord) {record : TextRecord} (b : UInt8) {i : Nat}
    (h : i < (bytesIn (records ++ [record])).length) :
    seat (records ++ [{ record with data := record.data ++ [b] }]) i =
      seat (records ++ [record]) i := by
  by_cases hi : i < (bytesIn records).length
  · rw [(seat_append_of_lt _ hi).1, (seat_append_of_lt _ hi).1]
  · obtain ⟨j, rfl⟩ := Nat.exists_eq_add_of_le (Nat.le_of_not_lt hi)
    have hj : j < record.data.length := by simpa [bytesIn] using h
    rw [seat_last records hj, seat_last records]
    simp only [List.length_append, List.length_singleton]
    omega

theorem seat_zero {records : List TextRecord} (hne : ∀ record ∈ records, record.data ≠ []) :
    seat records 0 = (0, 0) := by
  cases records with
  | nil => rfl
  | cons record records =>
    exact seat_cons_of_lt (List.length_pos_iff.2 (hne record List.mem_cons_self)) _

/-- The byte behind another one stands behind it in the same record, or first in the next one. -/
theorem seat_succ : ∀ {records : List TextRecord} {i : Nat},
    (∀ record ∈ records, record.data ≠ []) → i + 1 < (bytesIn records).length →
      seat records (i + 1) = ((seat records i).1, (seat records i).2 + 1) ∨
        seat records (i + 1) = ((seat records i).1 + 1, 0)
  | [], i, _, h => absurd h (Nat.not_lt_zero _)
  | record :: records, i, hne, h => by
    rw [bytesIn_cons, List.length_append] at h
    have hrest : ∀ other ∈ records, other.data ≠ [] :=
      fun other hother => hne other (List.mem_cons_of_mem _ hother)
    rcases Nat.lt_trichotomy (i + 1) record.data.length with hlt | heq | hgt
    · rw [seat_cons_of_lt hlt, seat_cons_of_lt (by omega)]
      exact .inl rfl
    · -- the byte is the last of the first record
      rw [seat_cons_of_lt (show i < record.data.length by omega),
        show i + 1 = record.data.length + 0 by omega, seat_cons_add, seat_zero hrest]
      exact .inr rfl
    · obtain ⟨j, rfl⟩ := Nat.exists_eq_add_of_le (Nat.le_of_lt_succ hgt)
      rw [Nat.add_assoc, seat_cons_add, seat_cons_add]
      rcases seat_succ hrest (i := j) (by omega) with hsame | hnext
      · exact .inl (by rw [hsame])
      · exact .inr (by rw [hnext])

/-! ## Bytes with the numbers of their lines -/

/-- The object bytes of lines with the number of their line, counted from `number` on, and their
address. -/
def numberedCells : (number : Nat) → List Report.Line → List (Nat × UInt32 × UInt8)
  | _, [] => []
  | number, line :: lines => line.cells.map (number, ·) ++ numberedCells (number + 1) lines

/-- The line reserves storage without bytes. -/
def Report.Line.IsGap (line : Report.Line) : Prop := line.object = [] ∧ 0 < line.width

/-- Two bytes that may stand in one record: their addresses are consecutive, and no storage without
bytes lies between their lines. -/
def Linked (lines : List Report.Line) (first second : Nat × UInt32 × UInt8) : Prop :=
  second.2.1 = first.2.1 + 1 ∧
    ∀ (k : Nat) (line : Report.Line), first.1 < k → k < second.1 → lines[k]? = some line →
      ¬ line.IsGap

/-- Records that carry the bytes of lines in their order, one to thirty in each, and in which a byte
stands in the record of the byte before it exactly if it may and that record has room. -/
structure IsChunking (lines : List Report.Line) (records : List TextRecord) : Prop where
  carried : records.flatMap TextRecord.cells = lines.flatMap Report.Line.cells
  sized : ∀ record ∈ records, 1 ≤ record.data.length ∧ record.data.length ≤ 30
  joined : ∀ (i : Nat) (first second : Nat × UInt32 × UInt8),
    (numberedCells 0 lines)[i]? = some first → (numberedCells 0 lines)[i + 1]? = some second →
      ((seat records (i + 1)).1 = (seat records i).1 ↔
        Linked lines first second ∧ (seat records i).2 + 1 < 30)

theorem map_snd_numberedCells : ∀ (number : Nat) (lines : List Report.Line),
    (numberedCells number lines).map (·.2) = lines.flatMap Report.Line.cells
  | _, [] => rfl
  | number, line :: lines => by
    rw [numberedCells, List.map_append, map_snd_numberedCells, List.map_map, List.flatMap_cons]
    congr 1
    exact List.map_id _

theorem map_snd_cells : ∀ (address : UInt32) (data : Text),
    (cells address data).map (·.2) = data
  | _, [] => rfl
  | address, b :: data => by rw [cells, List.map_cons, map_snd_cells]

theorem map_snd_flatMap_cells (records : List TextRecord) :
    (records.flatMap TextRecord.cells).map (·.2) = bytesIn records := by
  simp only [bytesIn, List.map_flatMap, TextRecord.cells, map_snd_cells]

namespace TextDeck

variable {lines : List Report.Line} {next : Nat} {carried : List (Nat × UInt32 × UInt8)}
  {deck : TextDeck}

/-- A deck that cuts the bytes of the lines before the line with number `next` as it should. -/
structure Joins (lines : List Report.Line) (next : Nat) (carried : List (Nat × UInt32 × UInt8))
    (deck : TextDeck) : Prop where
  carries : deck.Carries (carried.map (·.2))
  joined : ∀ (i : Nat) (first second : Nat × UInt32 × UInt8),
    carried[i]? = some first → carried[i + 1]? = some second →
      ((seat deck.records (i + 1)).1 = (seat deck.records i).1 ↔
        Linked lines first second ∧ (seat deck.records i).2 + 1 < 30)
  before : ∀ cell ∈ carried, cell.1 < next
  /-- No record grows behind storage without bytes. -/
  current : ∀ cell, carried.getLast? = some cell →
    (deck.current = none ↔
      ∃ (k : Nat) (line : Report.Line), cell.1 < k ∧ k < next ∧ lines[k]? = some line ∧ line.IsGap)

theorem Carries.length_bytesIn {cells : List (UInt32 × UInt8)} (h : deck.Carries cells) :
    (bytesIn deck.records).length = cells.length := by
  rw [← map_snd_flatMap_cells, h.cells, List.length_map]

/-- The growing record ends behind the last byte. -/
theorem Carries.stop_current {record : TextRecord} {cells : List (UInt32 × UInt8)}
    {cell : UInt32 × UInt8} (h : deck.Carries (cells ++ [cell]))
    (hcurrent : deck.current = some record) : record.stop = cell.1 + 1 := by
  obtain ⟨hcells, hsizes⟩ := h
  rw [records, hcurrent, Option.toList_some] at hcells hsizes
  have hne := (hsizes record (by simp)).1
  obtain ⟨data, b, hdata⟩ : ∃ data b, record.data = data ++ [b] :=
    ⟨_, _, (List.dropLast_concat_getLast hne).symm⟩
  rw [List.flatMap_append, List.flatMap_singleton, TextRecord.cells, hdata, cells_append,
    ← List.append_assoc] at hcells
  have hlast := (List.append_inj_right' hcells rfl)
  rw [SicXe.cells, SicXe.cells, List.cons.injEq] at hlast
  rw [TextRecord.stop, hdata, List.length_append, List.length_singleton, ← hlast.1,
    add_ofNat_succ, UInt32.add_assoc, UInt32.add_assoc, UInt32.add_comm 1]

/-- The last byte stands last in the growing record. -/
theorem Carries.seat_current {record : TextRecord} {cells : List (UInt32 × UInt8)}
    (h : deck.Carries cells) (hcurrent : deck.current = some record) {i : Nat}
    (hi : i + 1 = cells.length) :
    seat deck.records i = (deck.complete.toList.length, record.data.length - 1) ∧
      0 < record.data.length ∧ record.data.length ≤ TextRecord.capacity := by
  have hrecords : deck.records = deck.complete.toList ++ [record] := by
    rw [records, hcurrent, Option.toList_some]
  obtain ⟨hne, hsize⟩ := h.sizes record (by rw [hrecords]; simp)
  have hpos := List.length_pos_iff.2 hne
  have hlength : (bytesIn deck.complete.toList).length + record.data.length = i + 1 := by
    rw [hi, ← h.length_bytesIn, hrecords, bytesIn_append, List.length_append]
    simp [bytesIn]
  refine ⟨?_, hpos, hsize⟩
  rw [hrecords, show i = (bytesIn deck.complete.toList).length + (record.data.length - 1) by omega]
  exact seat_last _ (by omega)

namespace Joins

/-- A line that reserves no storage without bytes changes nothing by itself. -/
theorem skip (h : Joins lines next carried deck)
    (hline : ∀ line, lines[next]? = some line → ¬ line.IsGap) :
    Joins lines (next + 1) carried deck := by
  refine ⟨h.carries, h.joined, fun cell hcell => Nat.lt_succ_of_lt (h.before cell hcell),
    fun cell hcell => ?_⟩
  rw [h.current cell hcell]
  constructor
  · rintro ⟨k, line, hlow, hhigh, hk, hgap⟩
    exact ⟨k, line, hlow, Nat.lt_succ_of_lt hhigh, hk, hgap⟩
  · rintro ⟨k, line, hlow, hhigh, hk, hgap⟩
    rcases Nat.lt_succ_iff_lt_or_eq.1 hhigh with hlt | rfl
    · exact ⟨k, line, hlow, hlt, hk, hgap⟩
    · exact absurd hgap (hline line hk)

/-- Storage without bytes. -/
theorem cut (h : Joins lines next carried deck) {line : Report.Line}
    (hline : lines[next]? = some line) (hgap : line.IsGap) :
    Joins lines (next + 1) carried deck.cut := by
  refine ⟨h.carries.cut, ?_, fun cell hcell => Nat.lt_succ_of_lt (h.before cell hcell),
    fun cell hcell => ?_⟩
  · rw [records_cut]
    exact h.joined
  · have hbefore := h.before cell (List.mem_of_getLast? hcell)
    exact ⟨fun _ => ⟨next, line, hbefore, Nat.lt_succ_self next, hline, hgap⟩, fun _ => rfl⟩

/-- One more byte, which the deck `after` carries behind the others. Only the pair of the last byte
before and the new one has to be looked at. -/
theorem push (h : Joins lines (next + 1) carried deck) {after : TextDeck} {address : UInt32}
    {b : UInt8} (hcarries : after.Carries (carried.map (·.2) ++ [(address, b)]))
    (hcurrent : after.current ≠ none)
    (hseat : ∀ i < (bytesIn deck.records).length, seat after.records i = seat deck.records i)
    (hpair : ∀ init last, carried = init ++ [last] →
      ((seat after.records (bytesIn deck.records).length).1 = (seat deck.records init.length).1 ↔
        Linked lines last (next, address, b) ∧ (seat deck.records init.length).2 + 1 < 30)) :
    Joins lines (next + 1) (carried ++ [(next, address, b)]) after := by
  rw [h.carries.length_bytesIn, List.length_map] at hseat hpair
  refine ⟨by rwa [List.map_append], fun i first second hfirst hsecond => ?_, fun cell hcell => ?_,
    fun cell hcell => ?_⟩
  · have hlength : i + 1 < carried.length + 1 := by
      simpa using (List.getElem?_eq_some_iff.1 hsecond).1
    rw [List.getElem?_append_left (by omega)] at hfirst
    rcases Nat.lt_or_eq_of_le (Nat.le_of_lt_succ hlength) with hlt | heq
    · rw [List.getElem?_append_left hlt] at hsecond
      rw [hseat _ hlt, hseat _ (by omega)]
      exact h.joined i first second hfirst hsecond
    · rw [heq, List.getElem?_concat_length] at hsecond
      cases hsecond
      obtain ⟨init, last, rfl⟩ : ∃ init last, carried = init ++ [last] := by
        have hne : carried ≠ [] := List.ne_nil_of_length_pos (by omega)
        exact ⟨_, _, (List.dropLast_concat_getLast hne).symm⟩
      have hinit : i = init.length := by simpa using heq
      subst hinit
      rw [List.getElem?_concat_length] at hfirst
      cases hfirst
      rw [heq, hseat init.length (by omega)]
      exact hpair init _ rfl
  · rcases List.mem_append.1 hcell with hcell | hcell
    · exact h.before cell hcell
    · rw [List.mem_singleton.1 hcell]
      exact Nat.lt_succ_self next
  · rw [List.getLast?_concat] at hcell
    cases hcell
    refine iff_of_false hcurrent ?_
    rintro ⟨k, line, hlow, hhigh, -, -⟩
    dsimp only at hlow
    omega

/-- A byte that joins the growing record. -/
theorem grow (h : Joins lines (next + 1) carried deck) {record : TextRecord}
    (hcurrent : deck.current = some record) {address : UInt32} {b : UInt8}
    (hstop : record.stop = address) (hroom : record.data.length ≠ TextRecord.capacity) :
    Joins lines (next + 1) (carried ++ [(next, address, b)])
      { deck with current := some { record with data := record.data ++ [b] } } := by
  have hrecords : deck.records = deck.complete.toList ++ [record] := by
    rw [records, hcurrent, Option.toList_some]
  refine h.push (h.carries.grow hcurrent hstop hroom) (Option.some_ne_none _) ?_ ?_
  · intro i hi
    rw [hrecords] at hi ⊢
    exact seat_grow _ b hi
  · rintro init last rfl
    have hcarries := h.carries
    obtain ⟨hseat, hpos, hsize⟩ := hcarries.seat_current hcurrent (i := init.length) (by simp)
    rw [List.map_append] at hcarries
    have hfree : record.data.length < 30 := Nat.lt_of_le_of_ne hsize hroom
    have hnew : seat (deck.complete.toList ++ [{ record with data := record.data ++ [b] }])
        (bytesIn deck.records).length = (deck.complete.toList.length, record.data.length) := by
      rw [hrecords, bytesIn_append, List.length_append,
        show (bytesIn [record]).length = record.data.length by simp [bytesIn]]
      exact seat_last _ (by simp)
    have hlinked : Linked lines last (next, address, b) := by
      refine ⟨?_, fun k line hlow hhigh hk hgap => ?_⟩
      · rw [← hstop, hcarries.stop_current hcurrent]
      · -- a record still grows, so no storage without bytes came behind the last byte
        have hnone := (h.current last (by simp)).2
          ⟨k, line, hlow, Nat.lt_succ_of_lt hhigh, hk, hgap⟩
        rw [hcurrent] at hnone
        cases hnone
    have hsame : (seat (deck.complete.toList ++ [{ record with data := record.data ++ [b] }])
        (bytesIn deck.records).length).1 = deck.complete.toList.length := congrArg Prod.fst hnew
    rw [hseat]
    exact iff_of_true hsame ⟨hlinked, by dsimp only; omega⟩

/-- A byte that begins a record of its own, since it cannot join the growing one. -/
theorem fresh (h : Joins lines (next + 1) carried deck)
    (hline : ∀ line, lines[next]? = some line → ¬ line.IsGap) {after : TextDeck} {address : UInt32}
    {b : UInt8} (hafter : after.records = deck.records ++ [⟨address, [b]⟩])
    (hcurrent : after.current ≠ none)
    (hapart : ∀ record, deck.current = some record →
      ¬ (record.stop = address ∧ record.data.length ≠ TextRecord.capacity)) :
    Joins lines (next + 1) (carried ++ [(next, address, b)]) after := by
  refine h.push (h.carries.fresh hafter) hcurrent ?_ ?_
  · intro i hi
    rw [hafter]
    exact (seat_append_of_lt _ hi).1
  · rintro init last rfl
    have hcarries := h.carries
    have hlength : init.length + 1 = (bytesIn deck.records).length := by
      simp [hcarries.length_bytesIn]
    have hnew : seat after.records (bytesIn deck.records).length = (deck.records.length, 0) := by
      rw [hafter]
      exact seat_last deck.records (i := 0) Nat.one_pos
    have hold : (seat deck.records init.length).1 < deck.records.length :=
      (seat_append_of_lt [] (by omega)).2
    refine iff_of_false (by rw [hnew]; dsimp only; omega) ?_
    rintro ⟨⟨haddress, hclear⟩, hfree⟩
    cases hgrowing : deck.current with
    | none =>
      obtain ⟨k, line, hlow, hhigh, hk, hgap⟩ := (h.current last (by simp)).1 hgrowing
      rcases Nat.lt_succ_iff_lt_or_eq.1 hhigh with hlt | rfl
      · exact hclear k line hlow hlt hk hgap
      · exact hline line hk hgap
    | some record =>
      obtain ⟨hseat, hpos, -⟩ := hcarries.seat_current hgrowing (i := init.length) (by simp)
      rw [List.map_append] at hcarries
      rw [hseat] at hfree
      refine hapart record hgrowing ⟨(hcarries.stop_current hgrowing).trans haddress.symm, ?_⟩
      have hcapacity : TextRecord.capacity = 30 := rfl
      dsimp only at hfree
      omega

theorem pushByte (h : Joins lines (next + 1) carried deck)
    (hline : ∀ line, lines[next]? = some line → ¬ line.IsGap) (address : UInt32) (b : UInt8) :
    Joins lines (next + 1) (carried ++ [(next, address, b)]) (deck.pushByte address b) := by
  unfold TextDeck.pushByte
  cases hcurrent : deck.current with
  | none =>
    refine h.fresh hline (by simp [records, hcurrent]) (Option.some_ne_none _)
      fun record hrecord => ?_
    rw [hcurrent] at hrecord
    cases hrecord
  | some record =>
    dsimp only
    by_cases hjoin : record.stop = address ∧ record.data.length ≠ TextRecord.capacity
    · rw [if_pos hjoin]
      exact h.grow hcurrent hjoin.1 hjoin.2
    · rw [if_neg hjoin]
      refine h.fresh hline (by simp [records, TextDeck.cut]) (Option.some_ne_none _)
        fun other hother => ?_
      rw [hcurrent] at hother
      cases hother
      exact hjoin

theorem pushBytes (hline : ∀ line, lines[next]? = some line → ¬ line.IsGap) :
    ∀ {data : Text} {carried : List (Nat × UInt32 × UInt8)} {deck : TextDeck},
      Joins lines (next + 1) carried deck → ∀ address : UInt32,
        Joins lines (next + 1) (carried ++ (SicXe.cells address data).map (next, ·))
          (deck.pushBytes address data)
  | [], carried, deck, h, address => by
    rw [SicXe.cells, List.map_nil, List.append_nil]
    exact h
  | b :: data, carried, deck, h, address => by
    rw [SicXe.cells, List.map_cons, List.append_cons]
    exact pushBytes hline (h.pushByte hline address b) (address + 1)

/-- **One line.** -/
theorem pushLine (h : Joins lines next carried deck) {line : Report.Line}
    (hline : lines[next]? = some line) :
    Joins lines (next + 1) (carried ++ line.cells.map (next, ·)) (deck.pushLine line) := by
  unfold TextDeck.pushLine
  by_cases hempty : line.object = []
  · rw [if_pos hempty, Report.Line.cells, hempty, SicXe.cells, List.map_nil, List.append_nil]
    by_cases hwidth : 0 < line.width
    · rw [if_pos hwidth]
      exact h.cut hline ⟨hempty, hwidth⟩
    · rw [if_neg hwidth]
      refine h.skip fun other hother hgap => ?_
      rw [hline] at hother
      cases hother
      exact hwidth hgap.2
  · have hnot : ∀ other, lines[next]? = some other → ¬ other.IsGap := by
      intro other hother hgap
      rw [hline] at hother
      cases hother
      exact hempty hgap.1
    rw [if_neg hempty]
    exact pushBytes hnot (h.skip hnot) line.address

/-- **All lines**, from any of them on. -/
theorem pushLines : ∀ {rest done : List Report.Line} {carried : List (Nat × UInt32 × UInt8)}
    {deck : TextDeck}, Joins (done ++ rest) done.length carried deck →
      Joins (done ++ rest) (done ++ rest).length (carried ++ numberedCells done.length rest)
        (rest.foldl TextDeck.pushLine deck)
  | [], done, carried, deck, h => by
    rw [numberedCells, List.append_nil carried, List.foldl_nil]
    rwa [List.append_nil] at h ⊢
  | line :: rest, done, carried, deck, h => by
    have hline : (done ++ line :: rest)[done.length]? = some line := by simp
    have hnext := h.pushLine hline
    rw [List.append_cons done line rest] at hnext ⊢
    rw [numberedCells, ← List.append_assoc, List.foldl_cons]
    have hlength : done.length + 1 = (done ++ [line]).length := by simp
    rw [hlength] at hnext ⊢
    exact pushLines hnext

end Joins

end TextDeck

/-! ## Uniqueness -/

theorem length_cells (record : TextRecord) : record.cells.length = record.data.length := by
  rw [← List.length_map (·.2), TextRecord.cells, map_snd_cells]

theorem TextRecord.cells_inj {record record' : TextRecord} (hne : record.data ≠ [])
    (h : record.cells = record'.cells) : record = record' := by
  obtain ⟨start, data⟩ := record
  obtain ⟨start', data'⟩ := record'
  have hdata : data = data' := by
    have hmap := congrArg (List.map (·.2)) h
    rwa [cells, cells, map_snd_cells, map_snd_cells] at hmap
  subst hdata
  cases data with
  | nil => exact absurd rfl hne
  | cons b data =>
    have hstart : start = start' := (Prod.mk.inj (List.cons.inj h).1).1
    rw [hstart]

theorem eq_nil_of_bytesIn {records : List TextRecord} (hne : ∀ record ∈ records, record.data ≠ [])
    (h : bytesIn records = []) : records = [] := by
  refine List.eq_nil_iff_forall_not_mem.2 fun record hrecord => hne record hrecord ?_
  exact List.flatMap_eq_nil_iff.1 h record hrecord

/-- Two lists of records that give the first bytes the same places begin with records of the same
length. -/
theorem length_head_le {record record' : TextRecord} {records records' : List TextRecord}
    (hseat : ∀ i < (bytesIn (record' :: records')).length,
      seat (record :: records) i = seat (record' :: records') i) :
    record'.data.length ≤ record.data.length := by
  refine Nat.le_of_not_lt fun hlt => ?_
  have hplace := hseat record.data.length (by rw [bytesIn_cons, List.length_append]; omega)
  rw [seat_cons_of_lt hlt, ← Nat.add_zero record.data.length, seat_cons_add] at hplace
  exact absurd (congrArg Prod.fst hplace) (Nat.succ_ne_zero _)

/-- Records with the same bytes at the same addresses and in the same places are the same. -/
theorem eq_of_seat : ∀ {records records' : List TextRecord},
    (∀ record ∈ records, record.data ≠ []) → (∀ record ∈ records', record.data ≠ []) →
    records.flatMap TextRecord.cells = records'.flatMap TextRecord.cells →
    (∀ i < (bytesIn records).length, seat records i = seat records' i) → records = records'
  | [], records', _, hne', hcells, _ => by
    refine (eq_nil_of_bytesIn hne' ?_).symm
    rw [← map_snd_flatMap_cells, ← hcells]
    rfl
  | record :: records, [], hne, _, hcells, _ => by
    refine eq_nil_of_bytesIn hne ?_
    rw [← map_snd_flatMap_cells, hcells]
    rfl
  | record :: records, record' :: records', hne, hne', hcells, hseat => by
    have hbytes : bytesIn (record :: records) = bytesIn (record' :: records') := by
      rw [← map_snd_flatMap_cells, hcells, map_snd_flatMap_cells]
    have hlength : record.data.length = record'.data.length :=
      Nat.le_antisymm (length_head_le fun i hi => (hseat i hi).symm)
        (length_head_le (hbytes ▸ hseat))
    rw [List.flatMap_cons, List.flatMap_cons] at hcells
    obtain ⟨hfirst, hrest⟩ := List.append_inj hcells (by rw [length_cells, length_cells, hlength])
    obtain rfl := TextRecord.cells_inj (hne record List.mem_cons_self) hfirst
    congr 1
    refine eq_of_seat (fun other hother => hne other (List.mem_cons_of_mem _ hother))
      (fun other hother => hne' other (List.mem_cons_of_mem _ hother)) hrest fun i hi => ?_
    have hplace := hseat (record.data.length + i) (by rw [bytesIn_cons, List.length_append]; omega)
    rw [seat_cons_add, seat_cons_add, Prod.mk.injEq, Nat.add_right_cancel_iff] at hplace
    exact Prod.ext hplace.1 hplace.2

namespace IsChunking

variable {lines : List Report.Line} {records records' : List TextRecord}

theorem data_ne_nil (h : IsChunking lines records) : ∀ record ∈ records, record.data ≠ [] :=
  fun record hrecord => List.length_pos_iff.1 (h.sized record hrecord).1

theorem length_bytesIn (h : IsChunking lines records) :
    (bytesIn records).length = (numberedCells 0 lines).length := by
  rw [← map_snd_flatMap_cells, h.carried, ← map_snd_numberedCells 0, List.length_map,
    List.length_map]

/-- The rule decides where each byte stands, given where the byte before it stands. -/
theorem seat_eq (h : IsChunking lines records) (h' : IsChunking lines records') :
    ∀ i < (bytesIn records).length, seat records i = seat records' i := by
  have hbytes : (bytesIn records).length = (bytesIn records').length := by
    rw [h.length_bytesIn, h'.length_bytesIn]
  intro i
  induction i with
  | zero =>
    intro _
    rw [seat_zero h.data_ne_nil, seat_zero h'.data_ne_nil]
  | succ i ih =>
    intro hi
    have hplace := ih (Nat.lt_of_succ_lt hi)
    have hcell (j : Nat) (hj : j ≤ i + 1) : ∃ cell, (numberedCells 0 lines)[j]? = some cell :=
      ⟨_, List.getElem?_eq_getElem (by rw [← h.length_bytesIn]; omega)⟩
    obtain ⟨first, hfirst⟩ := hcell i (Nat.le_succ i)
    obtain ⟨second, hsecond⟩ := hcell (i + 1) (Nat.le_refl _)
    have hrule := h.joined i first second hfirst hsecond
    rw [hplace] at hrule
    have hsame := hrule.trans (h'.joined i first second hfirst hsecond).symm
    rcases seat_succ h.data_ne_nil hi with hs | hs <;>
      rcases seat_succ h'.data_ne_nil (hbytes ▸ hi) with hs' | hs' <;>
        rw [hs, hs', hplace] at hsame <;> rw [hs, hs', hplace] <;> simp at hsame

/-- There is one such list of records. -/
theorem unique (h : IsChunking lines records) (h' : IsChunking lines records') :
    records = records' :=
  eq_of_seat h.data_ne_nil h'.data_ne_nil (h.carried.trans h'.carried.symm) (h.seat_eq h')

end IsChunking

theorem isChunking_textRecords (lines : List Report.Line) :
    IsChunking lines (textRecords lines) := by
  have hempty : TextDeck.Joins lines 0 [] {} := by
    refine ⟨⟨rfl, ?_⟩, ?_, ?_, ?_⟩
    all_goals
      intros
      simp_all [TextDeck.records]
  have hjoins : TextDeck.Joins lines lines.length (numberedCells 0 lines)
      (lines.foldl TextDeck.pushLine {}) := @TextDeck.Joins.pushLines lines [] [] {} hempty
  rw [← records_textRecords, TextDeck.records_cut]
  refine ⟨?_, fun record hrecord => ?_, hjoins.joined⟩
  · rw [hjoins.carries.cells, map_snd_numberedCells]
  · obtain ⟨hne, hsize⟩ := hjoins.carries.sizes record hrecord
    exact ⟨List.length_pos_iff.2 hne, hsize⟩

/-- **Text records cut the bytes of lines greedily**, and no other list of records does. -/
theorem textRecords_eq_iff (lines : List Report.Line) (records : List TextRecord) :
    textRecords lines = records ↔ IsChunking lines records := by
  constructor
  · rintro rfl
    exact isChunking_textRecords lines
  · intro h
    exact (isChunking_textRecords lines).unique h

end SicXe
