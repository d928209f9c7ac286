import Mathlib.Data.List.Forall2
import Mathlib.Data.Nat.Digits.Defs
import SicXe.Proofs.Decoding
import SicXe.Proofs.Numerals

/-!
# The forms of literals

Which texts are addresses, counts and constants and what they stand for, said without the readers:

* `Numeral.IsDigit`, `Numeral.Denotes`: a row of digits denotes the sum of its digits, each times a
  power of the base.
* `Numeral.IsAddress`, `Numeral.IsCount`: digits behind a mark or a sign, with a value in range.
* `Constant.IsConstant`: characters or hexadecimal digits in quotes.

The readers accept these forms and no others: `Numeral.scan_eq_ok_iff` for the digits,
`Numeral.toNat_decodeAddress`, `Numeral.toInt_decodeCount` and `Constant.decode?_eq_some_iff` for the
whole, and `literals_exact` for all of them.
-/

namespace SicXe

/-! ## Digits -/

namespace Numeral

/-- The byte is the digit of a base with the given value, from ten on a letter of either case. -/
def IsDigit (base : Nat) (b : UInt8) (d : Nat) : Prop :=
  d < base ∧
    if d < 10 then b.toNat = 0x30 + d else b.toNat = 0x41 + (d - 10) ∨ b.toNat = 0x61 + (d - 10)

/-- The text is one or more digits of a base, and denotes a number by the places of its digits. -/
def Denotes (base : Nat) (t : Text) (n : Nat) : Prop :=
  t ≠ [] ∧ ∃ ds, List.Forall₂ (IsDigit base) t ds ∧ n = Nat.ofDigits base ds.reverse

variable {base d n value : Nat} {b : UInt8} {t digits : Text}

theorem digit?_eq_some_iff (hbase : base ≤ 36) : digit? base b = some d ↔ IsDigit base b d := by
  unfold digit? digitValue? IsDigit
  dsimp only
  split_ifs <;> grind

/-- Horner's rule: digits behind a value denote that value, moved to the left, and their own. -/
theorem valueFrom?_eq_some_iff (hbase : base ≤ 36) : valueFrom? base value t = some n ↔
    ∃ ds, List.Forall₂ (IsDigit base) t ds ∧
      n = Nat.ofDigits base ds.reverse + base ^ t.length * value := by
  induction t generalizing value with
  | nil => simp [valueFrom?, eq_comm, List.forall₂_nil_left_iff]
  | cons b t ih =>
    -- the first digit moves from the value to the row
    have hmove (ds : List Nat) (d : Nat) (hds : List.Forall₂ (IsDigit base) t ds) :
        Nat.ofDigits base ds.reverse + base ^ t.length * (value * base + d) =
          Nat.ofDigits base (d :: ds).reverse + base ^ (b :: t).length * value := by
      rw [Nat.ofDigits_reverse_cons, ← hds.length_eq, List.length_cons, pow_succ]
      ring
    rw [valueFrom?, Option.bind_eq_some_iff]
    constructor
    · rintro ⟨d, hd, h⟩
      obtain ⟨ds, hds, rfl⟩ := ih.1 h
      exact ⟨d :: ds, .cons ((digit?_eq_some_iff hbase).1 hd) hds, hmove ds d hds⟩
    · rintro ⟨_, _ | ⟨hd, hds⟩, rfl⟩
      exact ⟨_, (digit?_eq_some_iff hbase).2 hd, ih.2 ⟨_, hds, (hmove _ _ hds).symm⟩⟩

theorem denotes_iff (hbase : base ≤ 36) :
    Denotes base t n ↔ t ≠ [] ∧ valueFrom? base 0 t = some n := by
  simp [Denotes, valueFrom?_eq_some_iff hbase]

theorem scan_eq_ok_iff (hpos : 0 < base) (hbase : base ≤ 36) :
    scan base t = .ok n ↔ Denotes base t n ∧ n < 2 ^ 32 := by
  rw [scan_eq_ok hpos, denotes_iff hbase, and_assoc, scanLimit, Nat.le_iff_lt_add_one]
  rfl

theorem Denotes.isSome_digit? (hbase : base ≤ 36) (h : Denotes base t n) :
    ∀ b ∈ t, (digit? base b).isSome = true :=
  digit?_of_valueFrom? ((denotes_iff hbase).1 h).2

/-! ## Addresses -/

/-- What may stand before the digits of an address. -/
def marks : List Text := [[], "x", "X", "0x", "0X"]

/-- The text is an address: hexadecimal digits behind an optional mark, with a value of 32 bits. -/
def IsAddress (t : Text) (value : Nat) : Prop :=
  ∃ mark ∈ marks, ∃ digits, t = mark ++ digits ∧ Denotes 16 digits value ∧ value < 2 ^ 32

theorem isMarker_iff : isMarker b = true ↔ b = 0x78 ∨ b = 0x58 := by
  simp [isMarker]

theorem afterMarker_eq_ok (h : afterMarker t = .ok digits) : ∃ mark ∈ marks, t = mark ++ digits := by
  unfold afterMarker at h
  cases hfind : t.findIdx? isMarker with
  | none =>
    rw [hfind] at h
    cases h
    exact ⟨[], by decide, rfl⟩
  | some i =>
    obtain ⟨hi, hmarker, -⟩ := List.findIdx?_eq_some_iff_getElem.1 hfind
    rw [hfind] at h
    match i, t, hi, hmarker, h with
    | 0, b :: t, _, hmarker, h =>
      cases h
      rcases isMarker_iff.1 hmarker with rfl | rfl
      · exact ⟨[0x78], by decide, rfl⟩
      · exact ⟨[0x58], by decide, rfl⟩
    | 1, zero :: b :: t, _, hmarker, h =>
      by_cases hzero : zero = 0x30
      · subst hzero
        cases h
        rcases isMarker_iff.1 hmarker with rfl | rfl
        · exact ⟨[0x30, 0x78], by decide, rfl⟩
        · exact ⟨[0x30, 0x58], by decide, rfl⟩
      · simp [hzero] at h
    | _ + 2, _, _, _, h => cases h

theorem afterMarker_append {mark : Text} (hmark : mark ∈ marks)
    (hdigits : ∀ b ∈ digits, isMarker b = false) : afterMarker (mark ++ digits) = .ok digits := by
  have hnone : digits.findIdx? isMarker = none := List.findIdx?_eq_none_iff.2 hdigits
  unfold afterMarker
  simp only [marks, List.mem_cons, List.not_mem_nil, or_false] at hmark
  rcases hmark with rfl | rfl | rfl | rfl | rfl
  · rw [List.nil_append, hnone]
  all_goals rfl

/-- **An address** is read exactly if it is one. -/
theorem toNat_decodeAddress :
    (decodeAddress t).toOption.map UInt32.toNat = some value ↔ IsAddress t value := by
  constructor
  · intro h
    cases hn : decodeAddress t with
    | error e =>
      rw [hn] at h
      cases h
    | ok n =>
      rw [hn] at h
      cases h
      obtain ⟨digits, m, hmarker, hscan, rfl⟩ := decodeAddress_eq_ok.1 hn
      obtain ⟨mark, hmark, rfl⟩ := afterMarker_eq_ok hmarker
      obtain ⟨hdenotes, hlt⟩ := (scan_eq_ok_iff (by decide) (by decide)).1 hscan
      rw [UInt32.toNat_ofNat', Nat.mod_eq_of_lt hlt]
      exact ⟨mark, hmark, digits, rfl, hdenotes, hlt⟩
  · rintro ⟨mark, hmark, digits, rfl, hdenotes, hlt⟩
    have hmarker : afterMarker (mark ++ digits) = .ok digits := by
      refine afterMarker_append hmark fun b hb => ?_
      have hdigit := hdenotes.isSome_digit? (by decide) b hb
      rw [← Bool.not_eq_true, isMarker_iff]
      rintro (rfl | rfl) <;> exact absurd hdigit (by decide)
    have hscan := (scan_eq_ok_iff (by decide) (by decide)).2 ⟨hdenotes, hlt⟩
    rw [decodeAddress_eq_ok.2 ⟨digits, value, hmarker, hscan, rfl⟩]
    exact congrArg some (UInt32.toNat_ofNat_of_lt' hlt)

/-! ## Counts -/

/-- What may stand before the digits of a count, and the factor that it stands for. -/
def signs : List (Text × Int) := [([], 1), ("+", 1), ("-", -1)]

/-- The text is a count: decimal digits behind an optional sign, with a value of 32 bits. -/
def IsCount (t : Text) (value : Int) : Prop :=
  ∃ sign ∈ signs, ∃ (digits : Text) (n : Nat), t = sign.1 ++ digits ∧ Denotes 10 digits n ∧
    value = sign.2 * n ∧ -2 ^ 31 ≤ value ∧ value < 2 ^ 31

theorem decimal?_eq_some_iff {value : Int} : decimal? t = some value ↔
    ∃ n : Nat, Denotes 10 (splitSign t).2 n ∧ value = (if (splitSign t).1 then -1 else 1) * n ∧
      -2 ^ 31 ≤ value ∧ value < 2 ^ 31 := by
  rw [splitSign_eq, decimal?]
  dsimp only
  generalize (if t.head? = some 0x2D ∨ t.head? = some 0x2B then t.tail else t) = digits
  by_cases hdigits : digits = []
  · simp [hdigits, Denotes]
  · rw [if_neg hdigits]
    simp only [denotes_iff (show 10 ≤ 36 by decide), Option.filter_eq_some_iff,
      Option.map_eq_some_iff, decide_eq_true_eq, ne_eq, hdigits, not_false_eq_true, true_and]
    constructor
    · rintro ⟨⟨n, hn, rfl⟩, hrange⟩
      exact ⟨n, hn, by split <;> simp, hrange⟩
    · rintro ⟨n, hn, rfl, hrange⟩
      exact ⟨⟨n, hn, by split <;> simp⟩, hrange⟩

theorem splitSign_of_digits {d : Nat} (h : digit? 10 b = some d) (t : Text) :
    splitSign (b :: t) = (false, b :: t) := by
  have hminus : b ≠ 0x2D := by
    rintro rfl
    cases h
  have hplus : b ≠ 0x2B := by
    rintro rfl
    cases h
  rw [splitSign, if_neg hminus, if_neg hplus]

/-- **A count** is read exactly if it is one. -/
theorem toInt_decodeCount {value : Int} :
    (decodeCount t).toOption.map Int64.toInt = some value ↔ IsCount t value := by
  rw [decodeCount_eq, decimal?_eq_some_iff]
  constructor
  · rintro ⟨n, hdenotes, hvalue, hrange⟩
    cases t with
    | nil => exact absurd rfl hdenotes.1
    | cons b t =>
      rw [splitSign] at hdenotes hvalue
      by_cases hminus : b = 0x2D
      · rw [if_pos hminus] at hdenotes hvalue
        exact ⟨("-", -1), by decide, t, n, by rw [hminus]; rfl, hdenotes, hvalue, hrange⟩
      rw [if_neg hminus] at hdenotes hvalue
      by_cases hplus : b = 0x2B
      · rw [if_pos hplus] at hdenotes hvalue
        exact ⟨("+", 1), by decide, t, n, by rw [hplus]; rfl, hdenotes, hvalue, hrange⟩
      rw [if_neg hplus] at hdenotes hvalue
      exact ⟨([], 1), by decide, b :: t, n, rfl, hdenotes, hvalue, hrange⟩
  · rintro ⟨sign, hsign, digits, n, rfl, hdenotes, hvalue, hrange⟩
    simp only [signs, List.mem_cons, List.not_mem_nil, or_false] at hsign
    rcases hsign with rfl | rfl | rfl
    · -- without a sign the first byte is a digit
      cases digits with
      | nil => exact absurd rfl hdenotes.1
      | cons b digits =>
        have hdigit := hdenotes.isSome_digit? (by decide) b List.mem_cons_self
        obtain ⟨d, hd⟩ := Option.isSome_iff_exists.1 hdigit
        rw [List.nil_append, splitSign_of_digits hd]
        exact ⟨n, hdenotes, hvalue, hrange⟩
    · exact ⟨n, hdenotes, hvalue, hrange⟩
    · exact ⟨n, hdenotes, hvalue, hrange⟩

end Numeral

/-! ## Bytes as numbers -/

theorem bigEndian_eq_ofDigits (data : Text) :
    bigEndian data = Nat.ofDigits 256 (data.map UInt8.toNat).reverse := by
  have hfoldl (value : Nat) : data.foldl (fun value b => value * 256 + b.toNat) value =
      Nat.ofDigits 256 (data.map UInt8.toNat).reverse + 256 ^ data.length * value := by
    induction data generalizing value with
    | nil => simp
    | cons b data ih =>
      rw [List.foldl_cons, ih, List.map_cons, Nat.ofDigits_reverse_cons, List.length_map,
        List.length_cons, pow_succ]
      ring
  rw [bigEndian, hfoldl, Nat.mul_zero, Nat.add_zero]

theorem bigEndian_cons (b : UInt8) (data : Text) :
    bigEndian (b :: data) = bigEndian data + 256 ^ data.length * b.toNat := by
  rw [bigEndian_eq_ofDigits, bigEndian_eq_ofDigits, List.map_cons, Nat.ofDigits_reverse_cons,
    List.length_map]

/-- As many bytes that make the same number are the same bytes. -/
theorem bigEndian_inj {data data' : Text} (hlength : data.length = data'.length)
    (h : bigEndian data = bigEndian data') : data = data' := by
  have hbyte (data : Text) : ∀ n ∈ (data.map UInt8.toNat).reverse, n < 256 := by
    intro n hn
    obtain ⟨b, -, rfl⟩ := List.mem_map.1 (List.mem_reverse.1 hn)
    exact b.toNat_lt
  rw [bigEndian_eq_ofDigits, bigEndian_eq_ofDigits] at h
  have hdigits := Nat.ofDigits_inj_of_len_eq (by decide) (by simpa using hlength) (hbyte data)
    (hbyte data') h
  exact List.map_inj_right (fun _ _ => UInt8.toNat_inj.1) |>.1 (List.reverse_inj.1 hdigits)

/-! ## Constants -/

namespace Constant

open Numeral (IsDigit Denotes)

/-- The text is a constant for the given bytes: characters below 128 in quotes for themselves, or
hexadecimal digits in quotes for half as many bytes, rounded up, that make the same number. -/
inductive IsConstant : Text → Text → Prop
  | characters {content : Text} (nonempty : content ≠ []) (ascii : ∀ b ∈ content, b.toNat < 128) :
      IsConstant (Text.ofString "C'" ++ content ++ Text.ofString "'") content
  | hexadecimal {content data : Text} (value : Denotes 16 content (bigEndian data))
      (length : data.length = (content.length + 1) / 2) :
      IsConstant (Text.ofString "X'" ++ content ++ Text.ofString "'") data

variable {t content data : Text}

theorem waiting_lt {row : HexRow} (h : content.foldr pushDigit (some ⟨none, []⟩) = some row) :
    ∀ low ∈ row.waiting, low < 16 := by
  cases content with
  | nil =>
    cases h
    simp
  | cons b content =>
    rw [List.foldr_cons] at h
    obtain ⟨before, -, h⟩ := Option.bind_eq_some_iff.1 h
    obtain ⟨d, hd, rfl⟩ := Option.map_eq_some_iff.1 h
    have hlt := Numeral.digit?_lt hd
    cases hwaiting : before.waiting <;> simp [HexRow.push, hwaiting, hlt]

/-- The digits of a row make the number that its bytes make. -/
theorem ofDigits_foldr_pushDigit {row : HexRow}
    (h : content.foldr pushDigit (some ⟨none, []⟩) = some row) :
    ∃ ds, List.Forall₂ (IsDigit 16) content ds ∧
      Nat.ofDigits 16 ds.reverse = bigEndian row.close := by
  induction content generalizing row with
  | nil =>
    cases h
    exact ⟨[], .nil, rfl⟩
  | cons b content ih =>
    rw [List.foldr_cons] at h
    obtain ⟨before, hbefore, h⟩ := Option.bind_eq_some_iff.1 h
    obtain ⟨d, hd, rfl⟩ := Option.map_eq_some_iff.1 h
    obtain ⟨ds, hds, hvalue⟩ := ih hbefore
    have hcount := length_foldr_pushDigit content hbefore
    have hlength := hds.length_eq
    refine ⟨d :: ds, .cons ((Numeral.digit?_eq_some_iff (by decide)).1 hd) hds, ?_⟩
    rw [Nat.ofDigits_reverse_cons, hvalue, ← hlength, hcount]
    have hdlt := Numeral.digit?_lt hd
    have hpower : 16 ^ (2 * before.bytes.length) = 256 ^ before.bytes.length :=
      pow_mul 16 2 _
    have hbyte {n : Nat} (hn : n < 256) : (UInt8.ofNat n).toNat = n := by
      rw [UInt8.toNat_ofNat', Nat.mod_eq_of_lt hn]
    cases hwaiting : before.waiting with
    | none =>
      simp only [HexRow.push, HexRow.close, hwaiting, Option.toList_none, List.length_nil,
        Nat.add_zero, bigEndian_cons, hpower]
      rw [hbyte (by omega)]
    | some low =>
      have hlow := waiting_lt hbefore low hwaiting
      simp only [HexRow.push, HexRow.close, hwaiting, Option.toList_some, List.length_singleton,
        bigEndian_cons, pow_succ, hpower]
      rw [hbyte (by omega), hbyte (by omega)]
      ring

theorem exists_row (h : ∀ b ∈ content, (Numeral.digit? 16 b).isSome = true) :
    ∃ row, content.foldr pushDigit (some ⟨none, []⟩) = some row := by
  induction content with
  | nil => exact ⟨_, rfl⟩
  | cons b content ih =>
    rw [List.forall_mem_cons] at h
    obtain ⟨row, hrow⟩ := ih h.2
    obtain ⟨d, hd⟩ := Option.isSome_iff_exists.1 h.1
    exact ⟨row.push d, by rw [List.foldr_cons, hrow, pushDigit, hd]; rfl⟩

/-- **Hexadecimal digits** stand for half as many bytes that make the same number. -/
theorem hexContent?_eq_some_iff (hne : content ≠ []) : hexContent? content = some data ↔
    Denotes 16 content (bigEndian data) ∧ data.length = (content.length + 1) / 2 := by
  have hread {data : Text} (h : hexContent? content = some data) :
      Denotes 16 content (bigEndian data) := by
    rw [hexContent?_eq] at h
    obtain ⟨row, hrow, rfl⟩ := Option.map_eq_some_iff.1 h
    obtain ⟨ds, hds, hvalue⟩ := ofDigits_foldr_pushDigit hrow
    exact ⟨hne, ds, hds, hvalue.symm⟩
  constructor
  · exact fun h => ⟨hread h, length_hexContent? h⟩
  · rintro ⟨hdenotes, hlength⟩
    -- some bytes are read, and they are the only ones of their number with that value
    obtain ⟨row, hrow⟩ := exists_row (hdenotes.isSome_digit? (by decide))
    have hcontent : hexContent? content = some row.close := by rw [hexContent?_eq, hrow]; rfl
    rw [hcontent, Option.some.injEq]
    refine bigEndian_inj ((length_hexContent? hcontent).trans hlength.symm) ?_
    have hvalue := ((Numeral.denotes_iff (by decide)).1 (hread hcontent)).2
    rw [((Numeral.denotes_iff (by decide)).1 hdenotes).2] at hvalue
    exact (Option.some.inj hvalue).symm

/-- **A constant** is read exactly if it is one. -/
theorem decode?_eq_some_iff : decode? t = some data ↔ IsConstant t data := by
  rw [decode?_eq_some_iff_content?]
  constructor
  · rintro ⟨kind, content, rfl, h⟩
    cases kind with
    | characters =>
      obtain ⟨hne, hascii, rfl⟩ := content?_characters.1 h
      exact .characters hne hascii
    | hexadecimal =>
      obtain ⟨hne, hbytes⟩ := content?_hexadecimal.1 h
      obtain ⟨hvalue, hlength⟩ := (hexContent?_eq_some_iff hne).1 hbytes
      exact .hexadecimal hvalue hlength
  · intro h
    cases h with
    | characters hne hascii =>
      exact ⟨.characters, data, rfl, content?_characters.2 ⟨hne, hascii, rfl⟩⟩
    | @hexadecimal content _ hvalue hlength =>
      refine ⟨.hexadecimal, content, rfl, content?_hexadecimal.2 ⟨hvalue.1, ?_⟩⟩
      exact (hexContent?_eq_some_iff hvalue.1).2 ⟨hvalue, hlength⟩

end Constant

/-- **The forms of literals.** Of all texts, exactly the addresses, the counts and the constants are
read as such, with the value that their form says. An address that was written with six digits or
more is read back. -/
theorem literals_exact (t : Text) :
    (∀ value : Nat, (Numeral.decodeAddress t).toOption.map UInt32.toNat = some value ↔
      Numeral.IsAddress t value) ∧
    (∀ address : UInt32, Numeral.decodeAddress (Numeral.hex 6 address.toNat) = .ok address) ∧
    (∀ value : Int, (Numeral.decodeCount t).toOption.map Int64.toInt = some value ↔
      Numeral.IsCount t value) ∧
    ∀ data : Text, Constant.decode? t = some data ↔ Constant.IsConstant t data :=
  ⟨fun _ => Numeral.toNat_decodeAddress, Numeral.decodeAddress_hex 6,
    fun _ => Numeral.toInt_decodeCount, fun _ => Constant.decode?_eq_some_iff⟩

end SicXe
