import Mathlib.Data.Nat.Digits.Defs
import SicXe.Machine.Basic
import SicXe.Proofs.Numerals

/-!
# Dumps of memory

* `Numeral.hex_eq_leftpad`: a hexadecimal number by its digits to base sixteen.
* `Text.unescaped`: a text without its escape sequences. `Text.ShowsAs`: what a part of a text comes
  to, whatever stands behind it.
* `Machine.rowsFrom`: bytes cut into rows with their addresses.
* `Machine.slice`, `Machine.dumpEnd_eq`: the bytes that are asked for; a dump ends with them, also
  when the sum of address and number does not fit into 32 bits.
* `Machine.dump_shown`: a dump shows these bytes row by row, with colours or without.
* `Machine.dumpLoop`, `Machine.dumpLoop_eq_dump`: the same text byte by byte, where a byte that
  begins a row ends the row before it.
-/

namespace SicXe

/-! ## Hexadecimal numbers by their digits -/

namespace Numeral

theorem digitsBefore_eq {digit : Nat → UInt8} {base : Nat} (hb : 1 < base) :
    ∀ {fuel n : Nat} (low : Text), 0 < n → n < fuel →
      digitsBefore digit base fuel n low = (Nat.digits base n).reverse.map digit ++ low
  | fuel + 1, n, low, hn, hfuel => by
    rw [Nat.digits_def' hb hn, List.reverse_cons, List.map_append, List.append_assoc, digitsBefore]
    split
    case isTrue hlt =>
      rw [Nat.mod_eq_of_lt hlt, Nat.div_eq_of_lt hlt, Nat.digits_zero]
      rfl
    case isFalse hge =>
      have hpos : 0 < n / base := Nat.div_pos (Nat.le_of_not_lt hge) (by omega)
      have hless : n / base < n := Nat.div_lt_self hn hb
      rw [digitsBefore_eq hb _ hpos (by omega)]
      rfl

/-- **A hexadecimal number** has its digits, highest first, behind as many zeros as it takes. -/
theorem hex_eq_leftpad {width : Nat} (hw : 0 < width) (n : Nat) :
    hex width n = ((Nat.digits 16 n).reverse.map upperDigit).leftpad width 0x30 := by
  rw [hex, zeroPad, digits, List.leftpad]
  cases n with
  | zero =>
    obtain ⟨width, rfl⟩ : ∃ k, width = k + 1 := ⟨width - 1, by omega⟩
    have hzeros : List.replicate (width + 1) (0x30 : UInt8) = List.replicate width 0x30 ++ [0x30] :=
      List.replicate_succ'
    rw [Nat.digits_zero, List.reverse_nil, List.map_nil, List.append_nil]
    exact hzeros.symm
  | succ n => rw [digitsBefore_eq (by decide) _ (Nat.succ_pos n) (by omega), List.append_nil]

theorem hex_two (b : UInt8) :
    hex 2 b.toNat = [upperDigit (b.toNat / 16), upperDigit (b.toNat % 16)] := by
  have hall : ∀ n < 256, hex 2 n = [upperDigit (n / 16), upperDigit (n % 16)] := by
    decide +kernel
  exact hall b.toNat b.toNat_lt

end Numeral

/-! ## Escape sequences -/

namespace Text

/-- The byte that begins an escape sequence, in front of a bracket. -/
def escape : UInt8 := 0x1B

/-- The bracket behind it. -/
def bracket : UInt8 := 0x5B

/-- Whether a byte ends an escape sequence. Parameters and separators, which are below, do not. -/
def endsEscape (b : UInt8) : Bool := 0x40 ≤ b.toNat && b.toNat ≤ 0x7E

/-- The text without its escape sequences; `inside` tells whether it begins inside of one. -/
def unescapedFrom : (inside : Bool) → Text → Text
  | _, [] => []
  | true, b :: t => unescapedFrom (!endsEscape b) t
  | false, [b] => [b]
  | false, b :: c :: t =>
    if b = escape ∧ c = bracket then unescapedFrom true t else b :: unescapedFrom false (c :: t)

/-- The text without its escape sequences. -/
def unescaped (t : Text) : Text := unescapedFrom false t

/-- A text that shows as another one, whatever stands behind it. -/
def ShowsAs (t shown : Text) : Prop := ∀ rest, unescaped (t ++ rest) = shown ++ unescaped rest

theorem ShowsAs.append {t u shown shown' : Text} (ht : ShowsAs t shown) (hu : ShowsAs u shown') :
    ShowsAs (t ++ u) (shown ++ shown') := by
  intro rest
  rw [List.append_assoc, ht, hu, List.append_assoc]

theorem ShowsAs.flatMap {α : Type} {f g : α → Text} : ∀ {items : List α},
    (∀ item ∈ items, ShowsAs (f item) (g item)) → ShowsAs (items.flatMap f) (items.flatMap g)
  | [], _ => fun _ => rfl
  | item :: items, h => by
    rw [List.forall_mem_cons] at h
    exact h.1.append (ShowsAs.flatMap h.2)

theorem ShowsAs.unescaped {t shown : Text} (h : ShowsAs t shown) : t.unescaped = shown := by
  have hend := h []
  rwa [List.append_nil, show Text.unescaped [] = [] from rfl, List.append_nil] at hend

theorem showsAs_of_not_mem : ∀ {t : Text}, escape ∉ t → ShowsAs t t
  | [], _, _ => rfl
  | b :: t, h, rest => by
    rw [List.mem_cons, not_or] at h
    have hrest := showsAs_of_not_mem h.2 rest
    rw [Text.unescaped] at hrest ⊢
    rw [List.cons_append, List.cons_append, ← hrest]
    cases t ++ rest with
    | nil => rfl
    | cons c t => exact if_neg fun hseq => h.1 hseq.1.symm

theorem unescapedFrom_parameters {final : UInt8} (hfinal : endsEscape final = true) (rest : Text) :
    ∀ {parameters : Text}, (∀ b ∈ parameters, endsEscape b = false) →
      unescapedFrom true (parameters ++ final :: rest) = unescapedFrom false rest
  | [], _ => by rw [List.nil_append, unescapedFrom, hfinal, Bool.not_true]
  | b :: parameters, h => by
    rw [List.forall_mem_cons] at h
    rw [List.cons_append, unescapedFrom, h.1, Bool.not_false,
      unescapedFrom_parameters hfinal rest h.2]

/-- An escape sequence does not show. -/
theorem showsAs_sequence (parameters : Text) (final : UInt8)
    (hparameters : ∀ b ∈ parameters, endsEscape b = false) (hfinal : endsEscape final = true) :
    ShowsAs (escape :: bracket :: parameters ++ [final]) [] := by
  intro rest
  rw [List.append_assoc, List.singleton_append, List.cons_append, List.cons_append, unescaped,
    unescapedFrom, if_pos ⟨rfl, rfl⟩, unescapedFrom_parameters hfinal rest hparameters]
  rfl

end Text

namespace Machine

/-! ## Rows -/

/-- Bytes from an address on, cut into rows of sixteen, each with the address of its first byte. -/
def rowsFrom (address : Nat) (data : Text) : List (Nat × Text) :=
  if data = [] then []
  else (address, data.take 16) :: rowsFrom (address + 16) (data.drop 16)
termination_by data.length
decreasing_by
  rename_i h
  have := List.length_pos_iff.2 h
  rw [List.length_drop]
  omega

theorem rowsFrom_nil (address : Nat) : rowsFrom address [] = [] := by
  rw [rowsFrom, if_pos rfl]

theorem rowsFrom_of_ne_nil (address : Nat) {data : Text} (h : data ≠ []) :
    rowsFrom address data =
      (address, data.take rowWidth) :: rowsFrom (address + rowWidth) (data.drop rowWidth) := by
  rw [rowsFrom, if_neg h]
  rfl

/-- The rows hold all the bytes, in order. -/
theorem flatMap_rowsFrom (address : Nat) (data : Text) :
    (rowsFrom address data).flatMap Prod.snd = data := by
  fun_induction rowsFrom address data with
  | case1 => rfl
  | case2 address data _ ih => rw [List.flatMap_cons, ih, List.take_append_drop]

/-- A byte of a row has its place among the bytes. -/
theorem getElem?_of_mem_rowsFrom {address : Nat} {data : Text} {row : Nat × Text}
    (h : row ∈ rowsFrom address data) {j : Nat} {b : UInt8} (hb : row.2[j]? = some b) :
    ∃ k, row.1 + j = address + k ∧ data[k]? = some b := by
  fun_induction rowsFrom address data with
  | case1 => cases h
  | case2 address data _ ih =>
    rcases List.mem_cons.1 h with rfl | h
    · rw [List.getElem?_take] at hb
      split at hb
      · exact ⟨j, rfl, hb⟩
      · cases hb
    · obtain ⟨k, hk, hget⟩ := ih h
      rw [List.getElem?_drop] at hget
      exact ⟨16 + k, by omega, hget⟩

/-! ## The bytes of a dump -/

/-- The addresses of memory from one on, as many as are asked for or there are. -/
def addressesFrom (machine : Machine) (address count : UInt32) : List Nat :=
  (List.range machine.memory.size).filter fun a =>
    address.toNat ≤ a ∧ a < address.toNat + count.toNat

/-- The bytes at these addresses. -/
def slice (machine : Machine) (address count : UInt32) : Text :=
  (machine.addressesFrom address count).filterMap (machine.memory[·]?)

theorem filter_range (low high : Nat) : ∀ size : Nat,
    (List.range size).filter (fun a => low ≤ a ∧ a < high) =
      List.range' low (min high size - low)
  | 0 => by simp
  | size + 1 => by
    rw [List.range_succ, List.filter_append, filter_range low high size]
    by_cases hin : low ≤ size ∧ size < high
    · have hcount : min high (size + 1) - low = min high size - low + 1 := by omega
      have hlast : low + (min high size - low) = size := by omega
      rw [hcount, List.range'_concat, Nat.one_mul, hlast]
      simp [hin]
    · have hcount : min high (size + 1) - low = min high size - low := by omega
      rw [hcount]
      simpa using hin

theorem bytes_eq (machine : Machine) (low high : Nat) :
    machine.bytes low high = (machine.memory.toList.drop low).take (high - low) := by
  rw [bytes, Array.toList_extract, List.extract_eq_take_drop]

theorem filterMap_range' (machine : Machine) (low : Nat) : ∀ {count : Nat},
    low + count ≤ machine.memory.size → (List.range' low count).filterMap (machine.memory[·]?) =
      machine.bytes low (low + count)
  | 0, _ => by simp [bytes_eq]
  | count + 1, h => by
    have hlt : low + count < machine.memory.size := by omega
    rw [List.range'_concat, Nat.one_mul, List.filterMap_append,
      filterMap_range' machine low (by omega), bytes, bytes, ← Nat.add_assoc,
      Array.extract_succ_right (by omega) hlt, Array.toList_push]
    simp [Array.getElem?_eq_getElem hlt]

/-- The slice is a part of memory without gaps. -/
theorem slice_eq_bytes (machine : Machine) (address count : UInt32) :
    machine.slice address count = machine.bytes address.toNat
      (min (address.toNat + count.toNat) machine.memory.size) := by
  rw [slice, addressesFrom, filter_range]
  by_cases hle : address.toNat ≤ min (address.toNat + count.toNat) machine.memory.size
  · rw [filterMap_range' machine _ (by omega), Nat.add_sub_cancel' hle]
  · rw [bytes_eq, Nat.sub_eq_zero_of_le (by omega)]
    rfl

/-- A dump ends where the slice does, also when the sum of address and number exceeds 32 bits. -/
theorem dumpEnd_eq {machine : Machine} (h : machine.memory.size < 2 ^ 32) (address count : UInt32) :
    machine.dumpEnd address count = min (address.toNat + count.toNat) machine.memory.size := by
  have hsize : machine.size.toNat = machine.memory.size := by
    rw [size, UInt32.toNat_ofNat', Nat.mod_eq_of_lt h]
  have haddress := address.toNat_lt
  have hcount := count.toNat_lt
  have hstop : (address + count).toNat = (address.toNat + count.toNat) % 2 ^ 32 :=
    UInt32.toNat_add ..
  unfold dumpEnd
  simp only [UInt32.lt_iff_toNat_lt, hsize]
  split <;> omega

/-! ## A dump row by row -/

theorem take_bytes (machine : Machine) (low high : Nat) :
    (machine.bytes low high).take rowWidth = machine.bytes low (min (low + rowWidth) high) := by
  rw [bytes_eq, bytes_eq, List.take_take]
  congr 1
  omega

theorem drop_bytes (machine : Machine) (low high : Nat) :
    (machine.bytes low high).drop rowWidth = machine.bytes (low + rowWidth) high := by
  rw [bytes_eq, bytes_eq, List.drop_take, List.drop_drop, Nat.sub_sub]

theorem bytes_ne_nil {machine : Machine} {low high : Nat} (hlt : low < high)
    (hhigh : high ≤ machine.memory.size) : machine.bytes low high ≠ [] := by
  rw [ne_eq, ← List.length_eq_zero_iff, bytes_eq, List.length_take, List.length_drop,
    Array.length_toList]
  omega

/-- **Rows that are counted** are those that are cut. -/
theorem flatMap_range_rows {machine : Machine} (render : Nat → Text → Text) {stop : Nat}
    (hstop : stop ≤ machine.memory.size) (first : Nat) :
    ((List.range ((stop - first + (rowWidth - 1)) / rowWidth)).flatMap fun k =>
        render (first + k * rowWidth) (machine.bytes (first + k * rowWidth)
          (min (first + k * rowWidth + rowWidth) stop))) =
      (rowsFrom first (machine.bytes first stop)).flatMap fun row => render row.1 row.2 := by
  by_cases hlt : first < stop
  · have hcount : (stop - first + (rowWidth - 1)) / rowWidth =
        (stop - (first + rowWidth) + (rowWidth - 1)) / rowWidth + 1 := by
      simp only [rowWidth]
      omega
    have hnext (k : Nat) : first + (k + 1) * rowWidth = first + rowWidth + k * rowWidth := by
      rw [Nat.add_mul, Nat.one_mul]
      omega
    have ih := flatMap_range_rows render hstop (first + rowWidth)
    rw [hcount, List.range_succ_eq_map, List.flatMap_cons, List.flatMap_map,
      rowsFrom_of_ne_nil _ (bytes_ne_nil hlt hstop), List.flatMap_cons, take_bytes, drop_bytes,
      ← ih]
    simp only [Nat.zero_mul, Nat.add_zero, Nat.succ_eq_add_one, hnext]
  · have hcount : (stop - first + (rowWidth - 1)) / rowWidth = 0 := by
      simp only [rowWidth]
      omega
    have hnil : machine.bytes first stop = [] := by
      rw [bytes_eq, Nat.sub_eq_zero_of_le (by omega), List.take_zero]
    rw [hcount, hnil, rowsFrom_nil]
    rfl
termination_by stop - first
decreasing_by
  simp only [rowWidth]
  omega

/-- The row with the given address and bytes. -/
def rowText (address : Nat) (data : Text) : Text :=
  0x5B :: ((Nat.digits 16 address).reverse.map Numeral.upperDigit).leftpad 5 0x30 ++ 0x5D ::
    data.flatMap (fun b =>
      [Text.blank, Numeral.upperDigit (b.toNat / 16), Numeral.upperDigit (b.toNat % 16)]) ++
    [Text.lineFeed]

theorem row_eq_rowText (address : Nat) (data : Text) :
    row false address data = rowText address data := by
  have hbyte : rowByte false = fun b =>
      [Text.blank, Numeral.upperDigit (b.toNat / 16), Numeral.upperDigit (b.toNat % 16)] :=
    funext fun b => congrArg (Text.blank :: ·) (Numeral.hex_two b)
  rw [row, rowText, hbyte, rowAddress, Numeral.hex_eq_leftpad (by decide)]
  simp

/-! ## Colours -/

theorem showsAs_bold : (Text.ofString "\x1b[1m").ShowsAs [] :=
  Text.showsAs_sequence [0x31] 0x6D (by simp [Text.endsEscape]) (by decide)

theorem showsAs_dimmed : (Text.ofString " \x1b[1;30m").ShowsAs [Text.blank] := by
  have hblank : Text.ShowsAs [Text.blank] [Text.blank] := Text.showsAs_of_not_mem (by decide)
  exact hblank.append
    (Text.showsAs_sequence [0x31, 0x3B, 0x33, 0x30] 0x6D (by simp [Text.endsEscape]) (by decide))

theorem showsAs_reset : (Text.ofString "\x1b[0m").ShowsAs [] :=
  Text.showsAs_sequence [0x30] 0x6D (by simp [Text.endsEscape]) (by decide)

theorem escape_not_mem_hex (width n : Nat) : Text.escape ∉ Numeral.hex width n := fun h =>
  absurd (Numeral.isHexDigit_of_mem_hex h) (by decide)

theorem showsAs_rowAddress (address : Nat) :
    (rowAddress true address).ShowsAs (rowAddress false address) := by
  have hlabel : Text.escape ∉ 0x5B :: Numeral.hex 5 address ++ [0x5D] := by
    simp only [List.cons_append, List.mem_cons, List.mem_append, List.not_mem_nil, or_false, not_or]
    exact ⟨by decide, escape_not_mem_hex _ _, by decide⟩
  have hshown := (showsAs_bold.append (Text.showsAs_of_not_mem hlabel)).append showsAs_reset
  rwa [List.nil_append, List.append_nil] at hshown

theorem showsAs_rowByte (b : UInt8) : (rowByte true b).ShowsAs (rowByte false b) := by
  have hdigits := Text.showsAs_of_not_mem (escape_not_mem_hex 2 b.toNat)
  unfold rowByte
  by_cases hzero : b = 0
  · have hshown := (showsAs_dimmed.append hdigits).append showsAs_reset
    rw [List.append_nil] at hshown
    simpa [hzero] using hshown
  · have hshown := (Text.showsAs_of_not_mem (by decide : Text.escape ∉ [Text.blank])).append hdigits
    simpa [hzero] using hshown

theorem showsAs_row (address : Nat) (data : Text) :
    (row true address data).ShowsAs (row false address data) :=
  ((showsAs_rowAddress address).append (.flatMap fun b _ => showsAs_rowByte b)).append
    (Text.showsAs_of_not_mem (by decide))

/-! ## What a dump shows -/

/-- What a dump of so many bytes from an address on shows. -/
structure Dumped (machine : Machine) (address count : UInt32) : Prop where
  /-- It consists of the rows of the slice. -/
  rows : machine.dump address count false =
    (rowsFrom address.toNat (machine.slice address count)).flatMap fun row => rowText row.1 row.2
  /-- The rows have every byte of the slice once, in order. -/
  bytes : (rowsFrom address.toNat (machine.slice address count)).flatMap Prod.snd =
    machine.slice address count
  /-- Every byte stands in memory as far behind the address of its row as it stands in the row. -/
  placed : ∀ row ∈ rowsFrom address.toNat (machine.slice address count), ∀ (j : Nat) b,
    row.2[j]? = some b → machine.memory[row.1 + j]? = some b
  empty : machine.dump address count false = [] ↔ machine.slice address count = []
  colored : (machine.dump address count true).unescaped = machine.dump address count false

theorem dump_eq_flatMap {machine : Machine} (h : machine.memory.size < 2 ^ 32)
    (address count : UInt32) (colored : Bool) :
    machine.dump address count colored =
      (rowsFrom address.toNat (machine.slice address count)).flatMap fun r =>
        row colored r.1 r.2 := by
  rw [dump, dumpEnd_eq h, slice_eq_bytes]
  exact flatMap_range_rows (row colored) (Nat.min_le_right _ _) address.toNat

/-- **A dump** shows the bytes from an address on, as many as are asked for or there are. -/
theorem dump_shown (machine : Machine) (h : machine.memory.size < 2 ^ 32)
    (address count : UInt32) : Dumped machine address count := by
  refine ⟨?rows, flatMap_rowsFrom _ _, ?placed, ?empty, ?colored⟩
  case rows =>
    rw [dump_eq_flatMap h]
    simp only [row_eq_rowText]
  case placed =>
    intro row hrow j b hb
    obtain ⟨k, hk, hget⟩ := getElem?_of_mem_rowsFrom hrow hb
    rw [slice_eq_bytes, bytes_eq, List.getElem?_take] at hget
    split at hget
    · rwa [List.getElem?_drop, Array.getElem?_toList, ← hk] at hget
    · cases hget
  case empty =>
    rw [dump_eq_flatMap h]
    by_cases hnil : machine.slice address count = []
    · simp [hnil, rowsFrom_nil]
    · rw [rowsFrom_of_ne_nil _ hnil]
      simp [hnil, row]
  case colored =>
    rw [dump_eq_flatMap h, dump_eq_flatMap h]
    exact (Text.ShowsAs.flatMap fun r _ => showsAs_row r.1 r.2).unescaped

/-- A dump to the end of memory: the sum of address and number is `2 ^ 32`. -/
theorem dump_shown_wrapped :
    ∃ machine : Machine, machine.memory.size < 2 ^ 32 ∧ Dumped machine 1 0xFFFFFFFF ∧
      machine.dump 1 0xFFFFFFFF false =
        "[00001] AB 00 00 00 00 00 00 00 00 00 00 00 00 00 00 00\n[00011] CD\n" := by
  have hsize : #[0, 0xAB, 0, 0, 0, 0, 0, 0, 0, 0, 0, 0, 0, 0, 0, 0, 0, 0xCD].size < 2 ^ 32 := by
    decide
  exact ⟨{ memory := #[0, 0xAB, 0, 0, 0, 0, 0, 0, 0, 0, 0, 0, 0, 0, 0, 0, 0, 0xCD] }, hsize,
    dump_shown _ hsize _ _, by decide +kernel⟩

/-! ## A dump byte by byte -/

section
variable {machine : Machine} {colored : Bool} {first stop i : UInt32}

theorem toNat_succ_of_lt (h : i < stop) : (i + 1).toNat = i.toNat + 1 := by
  have hstop := stop.toNat_lt
  rw [UInt32.lt_iff_toNat_lt] at h
  rw [UInt32.toNat_add, show (1 : UInt32).toNat = 1 from rfl]
  omega

/-- What is written for the byte at an address: a row begins with the first byte and with every
sixteenth behind it, and then ends the row before. -/
def dumpByte (machine : Machine) (colored : Bool) (first i : UInt32) : Text :=
  (if (i - first) % 16 = 0 then
    (if i = first then [] else [Text.lineFeed]) ++ rowAddress colored i.toNat
  else []) ++ rowByte colored (machine.memory[i.toNat]?.getD 0)

/-- The loop over the addresses of a dump. The last row ends behind it. -/
def dumpLoop (machine : Machine) (colored : Bool) (first stop i : UInt32) : Text :=
  if i < stop then
    machine.dumpByte colored first i ++ machine.dumpLoop colored first stop (i + 1)
  else if first < stop then [Text.lineFeed] else []
termination_by stop.toNat - i.toNat
decreasing_by
  rename_i h
  have hnext := toNat_succ_of_lt h
  rw [UInt32.lt_iff_toNat_lt] at h
  omega

theorem rowBegins_iff (h : first ≤ i) :
    (i - first) % 16 = 0 ↔ (i.toNat - first.toNat) % rowWidth = 0 := by
  rw [← UInt32.toNat_inj, UInt32.toNat_mod, UInt32.toNat_sub_of_le _ _ h]
  rfl

theorem bytes_cons {low high : Nat} (hlt : low < high) (hhigh : high ≤ machine.memory.size) :
    machine.bytes low high = machine.memory[low]?.getD 0 :: machine.bytes (low + 1) high := by
  have hsize : low < machine.memory.toList.length := by
    rw [Array.length_toList]
    omega
  rw [bytes_eq, bytes_eq, List.drop_eq_getElem_cons hsize,
    show high - low = high - (low + 1) + 1 by omega, List.take_succ_cons, Array.getElem_toList,
    Array.getElem?_eq_getElem (by omega), Option.getD_some]

/-- A row ends after sixteen bytes, or with the last one. -/
theorem exists_rowEnd (hlt : i < stop) :
    ∃ j : UInt32, j.toNat = min (i.toNat + rowWidth) stop.toNat ∧ i < j ∧ j ≤ stop := by
  have hbound := stop.toNat_lt
  have hj : (UInt32.ofNat (min (i.toNat + rowWidth) stop.toNat)).toNat =
      min (i.toNat + rowWidth) stop.toNat := UInt32.toNat_ofNat_of_lt' (by change _ < 2 ^ 32; omega)
  refine ⟨_, hj, ?_⟩
  rw [UInt32.lt_iff_toNat_lt] at hlt
  rw [UInt32.lt_iff_toNat_lt, UInt32.le_iff_toNat_le, hj, rowWidth]
  omega

/-- The first row, which ends after sixteen bytes or with the last one, and the rows behind it. -/
theorem rowsFrom_bytes {low next high : Nat} (hlt : low < high) (hhigh : high ≤ machine.memory.size)
    (hnext : next = min (low + rowWidth) high) :
    rowsFrom low (machine.bytes low high) =
      (low, machine.bytes low next) :: rowsFrom next (machine.bytes next high) := by
  rw [rowsFrom_of_ne_nil _ (bytes_ne_nil hlt hhigh), take_bytes, drop_bytes, ← hnext]
  by_cases hle : low + rowWidth ≤ high
  · rw [hnext, Nat.min_eq_left hle]
  · rw [hnext, Nat.min_eq_right (by omega), bytes_eq _ (low + rowWidth), bytes_eq _ high,
      Nat.sub_eq_zero_of_le (by omega), Nat.sub_self, List.take_zero, List.take_zero, rowsFrom_nil,
      rowsFrom_nil]

section
variable (hstop : stop.toNat ≤ machine.memory.size)
include hstop

/-- Inside of a row the loop writes bytes alone. -/
theorem dumpLoop_inside {j : UInt32} (hle : j ≤ stop) (hij : i ≤ j) (hfirst : first ≤ i)
    (hinside : ∀ a, i.toNat ≤ a → a < j.toNat → (a - first.toNat) % rowWidth ≠ 0) :
    machine.dumpLoop colored first stop i =
      (machine.bytes i.toNat j.toNat).flatMap (rowByte colored) ++
        machine.dumpLoop colored first stop j := by
  obtain ⟨n, hn⟩ := Nat.exists_eq_add_of_le (UInt32.le_iff_toNat_le.1 hij)
  induction n generalizing i with
  | zero =>
    obtain rfl : j = i := UInt32.toNat_inj.1 hn
    simp [bytes_eq]
  | succ n ih =>
    have hlt : i < stop := UInt32.lt_iff_toNat_lt.2 (by rw [UInt32.le_iff_toNat_le] at hle; omega)
    have hnext := toNat_succ_of_lt hlt
    have hbegins := mt (rowBegins_iff hfirst).1 (hinside i.toNat (Nat.le_refl _) (by omega))
    rw [UInt32.le_iff_toNat_le] at hle hfirst
    rw [dumpLoop, if_pos hlt, dumpByte, if_neg hbegins, List.nil_append,
      ih (UInt32.le_iff_toNat_le.2 (by omega)) (UInt32.le_iff_toNat_le.2 (by omega))
        (fun a hlow => hinside a (by omega)) (by omega),
      bytes_cons (show i.toNat < j.toNat by omega) (by omega), List.flatMap_cons, hnext,
      List.append_assoc]

/-- A row that begins is written up to its end. -/
theorem dumpLoop_row {j : UInt32} (hlt : i < stop) (hfirst : first ≤ i)
    (hbegins : (i.toNat - first.toNat) % rowWidth = 0)
    (hj : j.toNat = min (i.toNat + rowWidth) stop.toNat) :
    machine.dumpLoop colored first stop i =
      (if i = first then [] else [Text.lineFeed]) ++ rowAddress colored i.toNat ++
        (machine.bytes i.toNat j.toNat).flatMap (rowByte colored) ++
          machine.dumpLoop colored first stop j := by
  have hnext := toNat_succ_of_lt hlt
  have hrow := (rowBegins_iff hfirst).2 hbegins
  rw [dumpLoop, if_pos hlt, dumpByte, if_pos hrow]
  rw [UInt32.lt_iff_toNat_lt] at hlt
  rw [UInt32.le_iff_toNat_le] at hfirst
  simp only [rowWidth] at hbegins hj
  have hinside : ∀ a, (i + 1).toNat ≤ a → a < j.toNat → (a - first.toNat) % rowWidth ≠ 0 := by
    simp only [rowWidth]
    omega
  rw [dumpLoop_inside hstop (UInt32.le_iff_toNat_le.2 (by omega))
      (UInt32.le_iff_toNat_le.2 (by omega)) (UInt32.le_iff_toNat_le.2 (by omega)) hinside,
    bytes_cons (show i.toNat < j.toNat by omega) (by omega), List.flatMap_cons, hnext]
  simp only [List.append_assoc]

/-- **Behind the first row** the loop ends the row before and writes the others. -/
theorem dumpLoop_eq_rows (hfirst : first < i) (hle : i ≤ stop)
    (hbegins : i < stop → (i.toNat - first.toNat) % rowWidth = 0) :
    machine.dumpLoop colored first stop i = Text.lineFeed ::
      (rowsFrom i.toNat (machine.bytes i.toNat stop.toNat)).flatMap fun r =>
        row colored r.1 r.2 := by
  -- row by row to the end
  induction hn : stop.toNat - i.toNat using Nat.strong_induction_on generalizing i with
  | _ n ih =>
    by_cases hlt : i < stop
    · obtain ⟨j, hj, hij, hjstop⟩ := exists_rowEnd hlt
      have hrow := hbegins hlt
      rw [dumpLoop_row hstop hlt (UInt32.le_of_lt hfirst) hrow hj,
        if_neg (UInt32.ne_of_lt hfirst).symm]
      have hless : stop.toNat - j.toNat < n := by
        rw [UInt32.lt_iff_toNat_lt] at hlt hij
        omega
      have hnext : j < stop → (j.toNat - first.toNat) % rowWidth = 0 := by
        simp only [UInt32.lt_iff_toNat_lt, rowWidth] at hj hrow hfirst ⊢
        omega
      rw [ih _ hless (UInt32.lt_trans hfirst hij) hjstop hnext rfl,
        rowsFrom_bytes (UInt32.lt_iff_toNat_lt.1 hlt) hstop hj, List.flatMap_cons, row]
      simp
    · obtain rfl : i = stop := UInt32.toNat_inj.1 (by
        rw [UInt32.lt_iff_toNat_lt] at hlt
        rw [UInt32.le_iff_toNat_le] at hle
        omega)
      rw [dumpLoop, if_neg hlt, if_pos hfirst, bytes_eq, Nat.sub_self, List.take_zero, rowsFrom_nil]
      rfl

end

end

/-- **The loop writes the dump.** -/
theorem dumpLoop_eq_dump {machine : Machine} (h : machine.memory.size < 2 ^ 32)
    (address count : UInt32) (colored : Bool) :
    machine.dumpLoop colored address (UInt32.ofNat (machine.dumpEnd address count)) address =
      machine.dump address count colored := by
  have hbound : machine.dumpEnd address count < 2 ^ 32 := by
    rw [dumpEnd_eq h]
    omega
  have hstop : (UInt32.ofNat (machine.dumpEnd address count)).toNat =
      machine.dumpEnd address count := UInt32.toNat_ofNat_of_lt' hbound
  have hsize : machine.dumpEnd address count ≤ machine.memory.size := by
    rw [dumpEnd_eq h]
    exact Nat.min_le_right _ _
  rw [dump_eq_flatMap h, slice_eq_bytes, ← dumpEnd_eq h]
  generalize UInt32.ofNat (machine.dumpEnd address count) = stop at hstop ⊢
  rw [← hstop] at hsize ⊢
  by_cases hlt : address < stop
  · obtain ⟨j, hj, hij, hjstop⟩ := exists_rowEnd hlt
    have hnext : j < stop → (j.toNat - address.toNat) % rowWidth = 0 := by
      simp only [UInt32.lt_iff_toNat_lt, rowWidth] at hj ⊢
      omega
    rw [dumpLoop_row hsize hlt (UInt32.le_refl _) (by simp [rowWidth]) hj, if_pos rfl,
      dumpLoop_eq_rows hsize hij hjstop hnext,
      rowsFrom_bytes (UInt32.lt_iff_toNat_lt.1 hlt) hsize hj, List.flatMap_cons, row]
    simp
  · rw [dumpLoop, if_neg hlt, if_neg hlt, bytes_eq, Nat.sub_eq_zero_of_le (by
      rw [UInt32.lt_iff_toNat_lt] at hlt
      omega), List.take_zero, rowsFrom_nil]
    rfl

end Machine

end SicXe
