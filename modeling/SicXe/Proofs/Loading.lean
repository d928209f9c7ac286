import SicXe.Machine.Loader
import SicXe.Proofs.Constants
import SicXe.Proofs.Cutting
import SicXe.Proofs.Glyphs
import SicXe.Proofs.Numerals
import SicXe.Proofs.TextRecords

/-!
# Loading records

* `store`: memory with bytes at their addresses; `getElem?_store_of_mem`, `getElem?_store`: what it
  holds.
* `readText_text`, `readEnd_finishText`, `readHeader_headerText`: what the loader reads off written
  records.
* `loadLines_texts`: text records inside the announced range are all stored.
* `lines_programLines`, `loadLines_program`: a whole object program is read line by line and loaded,
  unless its header or its end record is refused.
-/

namespace SicXe

namespace Machine

/-! ## Memory -/

/-- Memory with bytes stored at their addresses, one after the other. -/
def store (memory : Array UInt8) (cells : List (UInt32 × UInt8)) : Array UInt8 :=
  cells.foldl (fun memory c => memory.setIfInBounds c.1.toNat c.2) memory

theorem size_store : ∀ (cells : List (UInt32 × UInt8)) (memory : Array UInt8),
    (store memory cells).size = memory.size
  | [], memory => rfl
  | c :: cells, memory => by
    rw [store, List.foldl_cons, ← store, size_store, Array.size_setIfInBounds]

theorem store_append (memory : Array UInt8) (cells more : List (UInt32 × UInt8)) :
    store memory (cells ++ more) = store (store memory cells) more :=
  List.foldl_append

/-- Where nothing is stored, memory stays. -/
theorem getElem?_store {i : Nat} : ∀ {cells : List (UInt32 × UInt8)} (memory : Array UInt8),
    (∀ c ∈ cells, c.1.toNat ≠ i) → (store memory cells)[i]? = memory[i]?
  | [], memory, _ => rfl
  | c :: cells, memory, h => by
    rw [List.forall_mem_cons] at h
    rw [store, List.foldl_cons, ← store, getElem?_store _ h.2, Array.getElem?_setIfInBounds,
      if_neg h.1]

/-- A byte is found where it was stored, if all that is stored there agrees. -/
theorem getElem?_store_of_mem {a : UInt32} {b : UInt8} :
    ∀ {cells : List (UInt32 × UInt8)} {memory : Array UInt8},
      a.toNat < memory.size → (a, b) ∈ cells → (∀ c ∈ cells, c.1 = a → c.2 = b) →
      (store memory cells)[a.toNat]? = some b
  | c :: cells, memory, hsize, hmem, hagree => by
    rw [List.forall_mem_cons] at hagree
    rw [store, List.foldl_cons, ← store]
    by_cases hlater : (a, b) ∈ cells
    · exact getElem?_store_of_mem (by rwa [Array.size_setIfInBounds]) hlater hagree.2
    · -- the byte is stored here, and nothing later goes to its address
      have hc : c = (a, b) := by
        rcases List.mem_cons.1 hmem with h | h
        · exact h.symm
        · exact absurd h hlater
      subst hc
      rw [getElem?_store, Array.getElem?_setIfInBounds, if_pos rfl, if_pos hsize]
      intro c hc haddress
      have ha : c.1 = a := UInt32.toNat_inj.1 haddress
      refine hlater ?_
      rw [← ha, ← hagree.2 c hc ha]
      exact hc

theorem write_eq_store : ∀ {data : Text} {address : UInt32} (memory : Array UInt8),
    address.toNat + data.length ≤ 2 ^ 32 →
    write memory address.toNat data = store memory (cells address data)
  | [], address, memory, _ => rfl
  | b :: data, address, memory, h => by
    rw [List.length_cons] at h
    rw [write, cells, store, List.foldl_cons, ← store]
    rcases data with _ | ⟨c, data⟩
    · rfl
    · rw [List.length_cons] at h
      have hnext : (address + 1).toNat = address.toNat + 1 := by
        rw [UInt32.toNat_add]
        simp only [UInt32.toNat_one]
        omega
      rw [← hnext]
      exact write_eq_store _ (by rw [hnext, List.length_cons]; omega)

/-! ## Columns -/

theorem columns_append {front middle back : Text} {low high : Nat} (hlow : front.length = low)
    (hhigh : low + middle.length = high) :
    columns (front ++ (middle ++ back)) low high = middle := by
  subst hlow hhigh
  rw [columns, List.drop_left, Nat.add_sub_cancel_left, List.take_left]

theorem length_hexBytes (data : Text) : (Numeral.hexBytes data).length = 2 * data.length := by
  induction data with
  | nil => rfl
  | cons b data ih =>
    rw [Numeral.hexBytes_cons, List.length_cons, List.length_cons, ih, List.length_cons]
    omega

end Machine

/-- A text record without its line feed. -/
def TextRecord.text (record : TextRecord) : Text :=
  [0x54] ++ (Numeral.hex 6 record.start.toNat ++
    (Numeral.hex 2 record.data.length ++ Numeral.hexBytes record.data))

theorem TextRecord.render_eq (record : TextRecord) :
    record.render = record.text ++ [Text.lineFeed] := by
  simp [render, text]

/-- A text record that lies in the range of a header and can be written with six digits. -/
structure TextRecord.Inside (record : TextRecord) (header : Header) : Prop where
  nonempty : record.data ≠ []
  size : record.data.length ≤ TextRecord.capacity
  low : header.start.toNat ≤ record.start.toNat
  high : record.start.toNat + record.data.length ≤ header.start.toNat + header.length.toNat
  memory : header.start.toNat + header.length.toNat ≤ 0x100000

namespace Machine

section
variable {header : Header} {record : TextRecord}

/-- **A written text record is read back.** -/
theorem readText_text (h : record.Inside header) (line : Nat) :
    readText header line record.text = .ok (record.start, record.data) := by
  obtain ⟨hne, hsize, hlow, hhigh, hmemory⟩ := h
  rw [TextRecord.capacity] at hsize
  have hstart : (Numeral.hex 6 record.start.toNat).length = 6 :=
    Numeral.length_hex (Nat.lt_of_le_of_lt (show _ ≤ 0x100000 by omega) (by decide))
  have hlength : (Numeral.hex 2 record.data.length).length = 2 :=
    Numeral.length_hex (Nat.lt_of_le_of_lt hsize (by decide))
  have hcount : (UInt32.ofNat record.data.length).toNat = record.data.length := by
    rw [UInt32.toNat_ofNat', Nat.mod_eq_of_lt (by omega)]
  have haddress : columns record.text 1 7 = Numeral.hex 6 record.start.toNat :=
    columns_append rfl (by rw [hstart])
  have hcolumn : columns record.text 7 9 = Numeral.hex 2 record.data.length := by
    rw [TextRecord.text, ← List.append_assoc]
    exact columns_append (by rw [List.length_append, hstart]; rfl) (by rw [hlength])
  have hdigits : record.text.drop 9 = Numeral.hexBytes record.data := by
    rw [TextRecord.text, ← List.append_assoc, ← List.append_assoc]
    refine List.drop_left' ?_
    rw [List.length_append, List.length_append, hstart, hlength]
    rfl
  have htext : ¬ record.text.length < 9 := by
    have hdrop := congrArg List.length hdigits
    have hpos := List.length_pos_iff.2 hne
    rw [List.length_drop, length_hexBytes] at hdrop
    omega
  unfold readText
  rw [if_neg htext, haddress, Numeral.decodeAddress_hex, hcolumn, ← hcount,
    Numeral.decodeAddress_hex]
  dsimp only
  rw [hdigits, Constant.content?_hexBytes hne]
  dsimp only
  have hmax : ¬ maxText < UInt32.ofNat record.data.length := by
    rw [UInt32.lt_iff_toNat_lt, hcount]
    exact Nat.not_lt.2 hsize
  have hrange : ¬ (record.start < header.start ∨
      header.start + header.length < record.start + UInt32.ofNat record.data.length) := by
    rw [UInt32.lt_iff_toNat_lt, UInt32.lt_iff_toNat_lt, UInt32.toNat_add, UInt32.toNat_add, hcount]
    omega
  rw [if_neg hmax, if_neg (by rw [length_hexBytes, hcount]; exact fun h => h rfl), if_neg hrange]

end

/-- The loader stores a text record inside the range of its header. -/
theorem loadLines_text {machine : Machine} {record : TextRecord} (h : record.Inside machine.header)
    (line : Nat) (failure : Option ReadError) (rest : List Text) :
    loadLines machine true line failure (record.text :: rest) =
      loadLines { machine with memory := store machine.memory record.cells } true (line + 1) failure
        rest := by
  have hread := readText_text h line
  have hfit : record.start.toNat + record.data.length ≤ 2 ^ 32 := by
    have := h.high
    have := h.memory
    omega
  rw [TextRecord.text, List.singleton_append] at hread ⊢
  rw [loadLines, if_neg (by decide), if_neg (by decide), if_pos rfl, hread]
  dsimp only
  rw [write_eq_store _ hfit]
  rfl

/-- **Text records are stored** one after the other. -/
theorem loadLines_texts (failure : Option ReadError) (rest : List Text) :
    ∀ {records : List TextRecord} (machine : Machine) (line : Nat),
      (∀ record ∈ records, record.Inside machine.header) →
      loadLines machine true line failure (records.map TextRecord.text ++ rest) =
        loadLines
          { machine with memory := store machine.memory (records.flatMap TextRecord.cells) }
          true (line + records.length) failure rest
  | [], machine, line, _ => rfl
  | record :: records, machine, line, h => by
    rw [List.forall_mem_cons] at h
    rw [List.map_cons, List.cons_append, loadLines_text h.1,
      loadLines_texts failure rest { machine with memory := store machine.memory record.cells } _
        h.2,
      List.flatMap_cons, store_append, List.length_cons, Nat.add_assoc, Nat.add_comm 1]

/-! ## The end record -/

/-- The end record without its line feed. -/
def finishText (entry : UInt32) : Text := [0x45] ++ (Numeral.hex 6 entry.toNat ++ [])

/-- **An end record** is accepted if the entry point is in memory, which is below `2 ^ 24`. -/
theorem readEnd_finishText (machine : Machine) (hsize : machine.size.toNat ≤ 0x100000) (line : Nat)
    (entry : UInt32) :
    if entry < machine.size then machine.readEnd line (finishText entry) = .ok entry
    else ∃ error, machine.readEnd line (finishText entry) = .error error := by
  by_cases hlen : (Numeral.hex 6 entry.toNat).length = 6
  · have hentry : columns (finishText entry) 1 7 = Numeral.hex 6 entry.toNat :=
      columns_append rfl (by rw [hlen])
    have hread : machine.readEnd line (finishText entry) =
        if entry < machine.size then .ok entry else .error (.address line machine.size entry) := by
      rw [readEnd, if_neg (by simp [finishText, hlen]), hentry, Numeral.decodeAddress_hex]
    split
    case isTrue h => rw [hread, if_pos h]
    case isFalse h => exact ⟨_, by rw [hread, if_neg h]⟩
  · -- an entry point with more than six digits is far beyond the memory
    have hlarge : ¬ entry < machine.size := by
      rw [UInt32.lt_iff_toNat_lt]
      intro hlt
      exact hlen (Numeral.length_hex (Nat.lt_trans (Nat.lt_of_lt_of_le hlt hsize) (by decide)))
    rw [if_neg hlarge]
    exact ⟨_, if_pos (by simpa [finishText] using hlen)⟩

/-! ## The header record -/

/-- The header record without its line feed. -/
def headerText (name : Text) (start length : UInt32) : Text :=
  [0x48] ++ (Text.padRight 6 (name.take Statement.maxLabel) ++ (Numeral.hex 6 start.toNat ++
    (Numeral.hex 6 length.toNat ++ [])))

theorem length_padRight_eq_iff {name : Text} (h : name.length ≤ 6) :
    (Text.padRight 6 name).length = 6 ↔ ∀ g ∈ name.glyphs, g.bytes.length = 1 := by
  have hle := Text.length_glyphs_le name
  rw [← Text.length_glyphs_eq_iff, Text.padRight, List.length_append, List.length_replicate]
  omega

/-- **A header record** is accepted if every glyph of the name is one byte. -/
theorem readHeader_headerText (machine : Machine) (line : Nat) {name : Text} {start length : UInt32}
    (hname : name.length ≤ Statement.maxLabel) (hblank : ∀ b ∈ name, b ≠ Text.blank)
    (hfit : start.toNat + length.toNat ≤ machine.size.toNat)
    (hsize : machine.size.toNat ≤ 0x100000) :
    if ∀ g ∈ name.glyphs, g.bytes.length = 1 then
      machine.readHeader line (headerText name start length) = .ok ⟨name, start, length⟩
    else ∃ error, machine.readHeader line (headerText name start length) = .error error := by
  have hstart : (Numeral.hex 6 start.toNat).length = 6 :=
    Numeral.length_hex (Nat.lt_of_le_of_lt (show _ ≤ 0x100000 by omega) (by decide))
  have hlength : (Numeral.hex 6 length.toNat).length = 6 :=
    Numeral.length_hex (Nat.lt_of_le_of_lt (show _ ≤ 0x100000 by omega) (by decide))
  have htext : headerText name start length = [0x48] ++ (Text.padRight 6 name ++
      (Numeral.hex 6 start.toNat ++ (Numeral.hex 6 length.toNat ++ []))) := by
    rw [headerText, List.take_of_length_le hname]
  have htotal : (headerText name start length).length = (Text.padRight 6 name).length + 13 := by
    simp only [htext, List.length_append, hstart, hlength, List.length_singleton, List.length_nil]
    omega
  by_cases hpad : (Text.padRight 6 name).length = 6
  · have hcolumns : columns (headerText name start length) 1 7 = Text.padRight 6 name ∧
        columns (headerText name start length) 7 13 = Numeral.hex 6 start.toNat ∧
        columns (headerText name start length) 13 19 = Numeral.hex 6 length.toNat := by
      rw [htext]
      refine ⟨columns_append rfl (by rw [hpad]), ?_, ?_⟩
      · rw [← List.append_assoc]
        exact columns_append (by rw [List.length_append, hpad]; rfl) (by rw [hstart])
      · rw [← List.append_assoc, ← List.append_assoc]
        exact columns_append (by rw [List.length_append, List.length_append, hpad, hstart]; rfl)
          (by rw [hlength])
    obtain ⟨hfirst, hsecond, hthird⟩ := hcolumns
    have hrange : ¬ machine.size < start + length := by
      rw [UInt32.lt_iff_toNat_lt, UInt32.toNat_add]
      omega
    have htrim : Text.trimEnd (· == Text.blank) (Text.padRight 6 name) = name :=
      Text.trimEnd_append_replicate rfl (fun b hb => by simpa using hblank b hb) _
    rw [if_pos ((length_padRight_eq_iff hname).1 hpad), readHeader, if_neg (by omega), hfirst,
      hsecond, hthird, Numeral.decodeAddress_hex, Numeral.decodeAddress_hex]
    dsimp only
    rw [if_neg hrange, htrim]
  · rw [if_neg (mt (length_padRight_eq_iff hname).2 hpad)]
    exact ⟨_, if_pos (by omega)⟩

/-! ## Whole object programs -/

/-- The lines of an object program. -/
def programLines (header : Header) (records : List TextRecord) (entry : UInt32) : List Text :=
  headerText header.name header.start header.length ::
    (records.map TextRecord.text ++ [finishText entry])

/-! ### Their lines -/

theorem oneLine_of_digits {t : Text} (h : ∀ b ∈ t, (Numeral.digit? 16 b).isSome = true) :
    t.OneLine := by
  intro b hb
  have hdigit := h b hb
  constructor <;> rintro rfl <;> exact absurd hdigit (by decide)

theorem oneLine_hex (width n : Nat) : (Numeral.hex width n).OneLine :=
  oneLine_of_digits fun _ => Numeral.isHexDigit_of_mem_hex

theorem oneLine_hexBytes (data : Text) : (Numeral.hexBytes data).OneLine := by
  refine oneLine_of_digits fun b hb => ?_
  obtain ⟨c, -, hb⟩ := List.mem_flatMap.1 hb
  rw [List.mem_cons, List.mem_singleton] at hb
  rcases hb with rfl | rfl
  · rw [Numeral.digit?_upperDigit (by have := c.toNat_lt; omega)]
    rfl
  · rw [Numeral.digit?_upperDigit (by omega)]
    rfl

theorem oneLine_letter {b : UInt8} (h : b ≠ Text.lineFeed ∧ b ≠ Text.carriageReturn) :
    Text.OneLine [b] :=
  List.forall_mem_singleton.2 h

theorem length_hex_word (n : UInt32) : (Numeral.hex 6 n.toNat).length ≤ 8 :=
  Numeral.length_hex_le (Nat.lt_of_lt_of_le n.toNat_lt (by decide)) (by decide)

theorem headerText_line {name : Text} (hname : name.OneLine) (start length : UInt32) :
    (headerText name start length).OneLine ∧
      (headerText name start length).length ≤ Text.maxLine := by
  constructor
  · have htake : Text.OneLine (name.take Statement.maxLabel) :=
      fun b hb => hname b (List.mem_of_mem_take hb)
    have hblanks (count : Nat) : Text.OneLine (List.replicate count Text.blank) := by
      intro b hb
      rw [List.eq_of_mem_replicate hb]
      decide
    simp only [headerText, Text.padRight, Text.oneLine_append]
    exact ⟨oneLine_letter (by decide), ⟨htake, hblanks _⟩, oneLine_hex _ _, oneLine_hex _ _, nofun⟩
  · have hstart := length_hex_word start
    have hlength := length_hex_word length
    have htake := List.length_take_le Statement.maxLabel name
    simp only [headerText, Text.padRight, List.length_append, List.length_replicate,
      List.length_singleton, List.length_nil, Text.maxLine, Statement.maxLabel] at *
    omega

theorem text_line {record : TextRecord} (hsize : record.data.length ≤ TextRecord.capacity) :
    record.text.OneLine ∧ record.text.length ≤ Text.maxLine := by
  constructor
  · simp only [TextRecord.text, Text.oneLine_append]
    exact ⟨oneLine_letter (by decide), oneLine_hex _ _, oneLine_hex _ _, oneLine_hexBytes _⟩
  · have hstart := length_hex_word record.start
    have hcount : (Numeral.hex 2 record.data.length).length ≤ 2 :=
      Numeral.length_hex_le (Nat.lt_of_le_of_lt hsize (by decide)) (by decide)
    have hdata := length_hexBytes record.data
    simp only [TextRecord.text, List.length_append, List.length_singleton, Text.maxLine,
      TextRecord.capacity] at *
    omega

theorem finishText_line (entry : UInt32) :
    (finishText entry).OneLine ∧ (finishText entry).length ≤ Text.maxLine := by
  constructor
  · simp only [finishText, Text.oneLine_append]
    exact ⟨oneLine_letter (by decide), oneLine_hex _ _, nofun⟩
  · have hentry := length_hex_word entry
    simp only [finishText, List.length_append, List.length_singleton, List.length_nil,
      Text.maxLine]
    omega

/-- **The records of an object program are read as lines.** -/
theorem lines_programLines {header : Header} {records : List TextRecord} (entry : UInt32)
    (hname : header.name.OneLine)
    (hsize : ∀ record ∈ records, record.data.length ≤ TextRecord.capacity) :
    Input.lines { text := (programLines header records entry).flatMap (· ++ [Text.lineFeed]) } =
      ⟨programLines header records entry, none⟩ := by
  have hlines : ∀ line ∈ programLines header records entry,
      line.OneLine ∧ line.length ≤ Text.maxLine := by
    rw [programLines, List.forall_mem_cons, List.forall_mem_append, List.forall_mem_singleton]
    refine ⟨headerText_line hname _ _, fun line hline => ?_, finishText_line entry⟩
    obtain ⟨record, hrecord, rfl⟩ := List.mem_map.1 hline
    exact text_line (hsize record hrecord)
  exact Input.lines_flatMap (fun line hm => (hlines line hm).1) fun line hm => (hlines line hm).2

/-! ### Their loading -/

theorem loadLines_headerText (machine : Machine) (name : Text) (start length : UInt32)
    (rest : List Text) :
    machine.loadLines false 1 none (headerText name start length :: rest) =
      match machine.readHeader 1 (headerText name start length) with
      | .error error => (machine, some error)
      | .ok header => loadLines { machine with header } true 2 none rest :=
  (if_pos rfl).trans (if_neg (by decide))

theorem loadLines_finishText (machine : Machine) (line : Nat) (entry : UInt32) :
    machine.loadLines true line none [finishText entry] =
      match machine.readEnd line (finishText entry) with
      | .error error => (machine, some error)
      | .ok entry => ({ machine with counter := entry }, none) :=
  (if_neg (by decide)).trans <| (if_neg (by decide)).trans <| (if_neg (by decide)).trans <|
    if_pos rfl

/-- **An object program is loaded** if its entry point is in memory and every glyph of its name is
one byte; and only then. -/
theorem loadLines_program (machine : Machine) {header : Header} {records : List TextRecord}
    (entry : UInt32) (hname : header.name.length ≤ Statement.maxLabel)
    (hblank : ∀ b ∈ header.name, b ≠ Text.blank)
    (hinside : ∀ record ∈ records, record.Inside header)
    (hfit : header.start.toNat + header.length.toNat ≤ machine.size.toNat)
    (hsize : machine.size.toNat ≤ 0x100000) :
    if entry < machine.size ∧ ∀ g ∈ header.name.glyphs, g.bytes.length = 1 then
      machine.loadLines false 1 none (programLines header records entry) =
        ({ header
           memory := store machine.memory (records.flatMap TextRecord.cells)
           counter := entry }, none)
    else
      ∃ error, (machine.loadLines false 1 none (programLines header records entry)).2 =
        some error := by
  have hheader := machine.readHeader_headerText 1 hname hblank hfit hsize
  rw [programLines, loadLines_headerText]
  by_cases hglyphs : ∀ g ∈ header.name.glyphs, g.bytes.length = 1
  · rw [if_pos hglyphs] at hheader
    rw [hheader]
    dsimp only
    rw [loadLines_texts none _ { machine with header } 2 hinside, loadLines_finishText]
    -- memory keeps its size while text records are stored
    have hstored : Machine.size { machine with
        header, memory := store machine.memory (records.flatMap TextRecord.cells) } =
        machine.size := by rw [size, size, size_store]
    have hend := readEnd_finishText { machine with
        header, memory := store machine.memory (records.flatMap TextRecord.cells) }
      (by rwa [hstored]) (2 + records.length) entry
    rw [hstored] at hend
    by_cases hentry : entry < machine.size
    · rw [if_pos ⟨hentry, hglyphs⟩]
      rw [if_pos hentry] at hend
      rw [hend]
    · rw [if_neg (fun h => hentry h.1)]
      rw [if_neg hentry] at hend
      obtain ⟨error, hend⟩ := hend
      exact ⟨error, by rw [hend]⟩
  · rw [if_neg hglyphs] at hheader
    obtain ⟨error, hheader⟩ := hheader
    rw [if_neg (fun h => hglyphs h.2), hheader]
    exact ⟨error, rfl⟩

end Machine

end SicXe
