import SicXe.Proofs.Loading

/-!
# The format of object programs

What a record has to look like, said without the loader and in exact numbers:

* `HexPairs`: two hexadecimal digits for each byte.
* `IsHeader`, `IsText`, `IsEnd`: the records of the three kinds, and what they stand for.
* `HeaderOffence`, `TextOffence`, `EndOffence`, `Offence`: what is wrong with a record, in the order
  of the checks, and the error for it.
* `record_cases`: a record fits its place, or there is an offence.
* `readHeader_of_isHeader`, `readHeader_of_offence` and those for the other kinds: the loader's
  readers agree with the format.
-/

namespace SicXe

namespace Constant

/-- A row of digits, two for each byte of the data. -/
inductive HexPairs : Text → Text → Prop
  | nil : HexPairs [] []
  | cons {high low b : UInt8} {h l : Nat} {digits data : Text}
      (hhigh : Numeral.digit? 16 high = some h) (hlow : Numeral.digit? 16 low = some l)
      (hb : b.toNat = h * 16 + l) (rest : HexPairs digits data) :
      HexPairs (high :: low :: digits) (b :: data)

theorem HexPairs.length {digits data : Text} (h : HexPairs digits data) :
    digits.length = 2 * data.length := by
  induction h with
  | nil => rfl
  | cons _ _ _ _ ih =>
    simp only [List.length_cons, ih]
    omega

theorem HexPairs.foldr_pushDigit {digits data : Text} (h : HexPairs digits data) :
    digits.foldr pushDigit (some ⟨none, []⟩) = some ⟨none, data⟩ := by
  induction h with
  | nil => rfl
  | cons hhigh hlow hb _ ih =>
    simp only [List.foldr_cons, ih, pushDigit, Option.bind_some, hlow, Option.map_some,
      HexRow.push, hhigh, ← hb, UInt8.ofNat_toNat]

/-- A row without a waiting digit consists of pairs. -/
theorem hexPairs_of_foldr : ∀ {digits data : Text},
    digits.foldr pushDigit (some ⟨none, []⟩) = some ⟨none, data⟩ → HexPairs digits data
  | [], data, h => by
    cases h
    exact .nil
  | [b], data, h => by
    have hlength := length_foldr_pushDigit [b] h
    simp only [List.length_singleton, Option.toList_none, List.length_nil] at hlength
    omega
  | high :: low :: digits, data, h => by
    rw [List.foldr_cons, List.foldr_cons] at h
    obtain ⟨right, hright, h⟩ := Option.bind_eq_some_iff.1 h
    obtain ⟨first, hfirst, hright⟩ := Option.bind_eq_some_iff.1 hright
    obtain ⟨l, hl, rfl⟩ := Option.map_eq_some_iff.1 hright
    obtain ⟨d, hd, h⟩ := Option.map_eq_some_iff.1 h
    obtain ⟨waiting, bytes⟩ := first
    cases waiting with
    | some _ => cases h
    | none =>
      cases h
      have hdlt := Numeral.digit?_lt hd
      have hllt := Numeral.digit?_lt hl
      refine .cons hd hl ?_ (hexPairs_of_foldr hfirst)
      rw [UInt8.toNat_ofNat', Nat.mod_eq_of_lt (by omega)]

theorem HexPairs.content? {digits data : Text} (h : HexPairs digits data) (hne : data ≠ []) :
    Constant.content? .hexadecimal digits = some data := by
  have hlength := h.length
  have hpos := List.length_pos_iff.2 hne
  rw [Constant.content?, if_neg (by rw [← List.length_eq_zero_iff]; omega)]
  rw [hexContent?_eq, h.foldr_pushDigit]
  rfl

theorem hexPairs_of_content? {digits data : Text} {n : Nat}
    (h : content? .hexadecimal digits = some data) (hlength : digits.length = 2 * n) :
    HexPairs digits data := by
  rw [content?] at h
  split at h
  · cases h
  rw [hexContent?_eq] at h
  obtain ⟨⟨waiting, bytes⟩, hrow, rfl⟩ := Option.map_eq_some_iff.1 h
  have hcount := length_foldr_pushDigit digits hrow
  cases waiting with
  | none => exact hexPairs_of_foldr hrow
  | some low =>
    simp only [Option.toList_some, List.length_singleton] at hcount
    omega

end Constant

namespace ObjectFormat

open Constant (HexPairs)
open Machine (columns)
open Numeral (decodeAddress)

/-! ## The three kinds of records -/

/-- A header record for a memory of the given size. -/
structure IsHeader (size : Nat) (record : Text) (header : Header) : Prop where
  letter : record.head? = some 0x48
  length : record.length = 19
  name : header.name = (columns record 1 7 : Text).trimEnd (· == Text.blank)
  start : decodeAddress (columns record 7 13) = .ok header.start
  extent : decodeAddress (columns record 13 19) = .ok header.length
  fits : header.start.toNat + header.length.toNat ≤ size

/-- A text record in the range of a header. -/
structure IsText (header : Header) (record : Text) (text : TextRecord) : Prop where
  letter : record.head? = some 0x54
  length : 9 ≤ record.length
  address : decodeAddress (columns record 1 7) = .ok text.start
  count : ∃ n, decodeAddress (columns record 7 9) = .ok n ∧ n.toNat = text.data.length
  digits : HexPairs (record.drop 9) text.data
  least : 1 ≤ text.data.length
  most : text.data.length ≤ 30
  low : header.start.toNat ≤ text.start.toNat
  high : text.start.toNat + text.data.length ≤ header.start.toNat + header.length.toNat

/-- An end record for a memory of the given size. -/
structure IsEnd (size : Nat) (record : Text) (entry : UInt32) : Prop where
  letter : record.head? = some 0x45
  length : record.length = 7
  field : decodeAddress (columns record 1 7) = .ok entry
  inside : entry.toNat < size

/-! ## Offences

The constructors stand in the order of the checks: each assumes that the checks before it were
passed. -/

section
variable (size : UInt32) (line : Nat) (record : Text)

/-- What is wrong with a header record. -/
inductive HeaderOffence : LoadError → Prop
  | length (h : record.length ≠ 19) : HeaderOffence (.record line .malformedHeader)
  | start {flaw : NumeralError} (hlength : record.length = 19)
      (h : decodeAddress (columns record 7 13) = .error flaw) :
      HeaderOffence (.record line .malformedStart)
  | extent {start : UInt32} {flaw : NumeralError} (hlength : record.length = 19)
      (hstart : decodeAddress (columns record 7 13) = .ok start)
      (h : decodeAddress (columns record 13 19) = .error flaw) :
      HeaderOffence (.record line .malformedLength)
  | beyond {start length reached : UInt32} (hlength : record.length = 19)
      (hstart : decodeAddress (columns record 7 13) = .ok start)
      (hextent : decodeAddress (columns record 13 19) = .ok length)
      (h : size.toNat < start.toNat + length.toNat)
      (hreached : reached.toNat = start.toNat + length.toNat) :
      HeaderOffence (.address line size reached)

/-- What is wrong with a text record. -/
inductive TextOffence (header : Header) : LoadError → Prop
  | short (h : record.length < 9) : TextOffence header (.record line .malformedText)
  | address {flaw : NumeralError} (hlength : 9 ≤ record.length)
      (h : decodeAddress (columns record 1 7) = .error flaw) :
      TextOffence header (.record line .malformedTextAddress)
  | count {address : UInt32} (hlength : 9 ≤ record.length)
      (haddress : decodeAddress (columns record 1 7) = .ok address)
      (h : ∀ n, decodeAddress (columns record 7 9) = .ok n → 30 < n.toNat) :
      TextOffence header (.record line .malformedTextLength)
  | digits {address n : UInt32} (hlength : 9 ≤ record.length)
      (haddress : decodeAddress (columns record 1 7) = .ok address)
      (hcount : decodeAddress (columns record 7 9) = .ok n) (hmost : n.toNat ≤ 30)
      (h : n.toNat = 0 ∨ ∀ data, HexPairs (record.drop 9) data → data.length ≠ n.toNat) :
      TextOffence header (.record line .lengthMismatch)
  | range {address n stop reached : UInt32} {data : Text} (hlength : 9 ≤ record.length)
      (haddress : decodeAddress (columns record 1 7) = .ok address)
      (hcount : decodeAddress (columns record 7 9) = .ok n) (hmost : n.toNat ≤ 30)
      (hdigits : HexPairs (record.drop 9) data) (hn : data.length = n.toNat) (hne : n.toNat ≠ 0)
      (h : address.toNat < header.start.toNat ∨
        header.start.toNat + header.length.toNat < address.toNat + n.toNat)
      (hstop : stop.toNat = header.start.toNat + header.length.toNat)
      (hreached : reached.toNat = address.toNat + n.toNat) :
      TextOffence header (.address line stop reached)

/-- What is wrong with an end record. -/
inductive EndOffence : LoadError → Prop
  | length (h : record.length ≠ 7) : EndOffence (.record line .malformedEnd)
  | entry {flaw : NumeralError} (hlength : record.length = 7)
      (h : decodeAddress (columns record 1 7) = .error flaw) :
      EndOffence (.record line .malformedEntry)
  | beyond {entry : UInt32} (hlength : record.length = 7)
      (hentry : decodeAddress (columns record 1 7) = .ok entry) (h : size.toNat ≤ entry.toNat) :
      EndOffence (.address line size entry)

/-- What is wrong with a record, behind the header that was read before it or at its place. -/
inductive Offence : Option Header → LoadError → Prop
  | expectedHeader (hne : record ≠ []) (h : record.head? ≠ some 0x48) :
      Offence none (.record line .expectedHeader)
  | duplicateHeader {header : Header} (h : record.head? = some 0x48) :
      Offence (some header) (.record line .duplicateHeader)
  | unknownKind {header : Header} {letter : UInt8} (hletter : record.head? = some letter)
      (h : letter ∉ [0x48, 0x54, 0x45]) :
      Offence (some header) (.record line (.unknownKind letter))
  | header {error : LoadError} (hletter : record.head? = some 0x48)
      (h : HeaderOffence size line record error) : Offence none error
  | text {header : Header} {error : LoadError} (hletter : record.head? = some 0x54)
      (h : TextOffence line record header error) : Offence (some header) error
  | finish {header : Header} {error : LoadError} (hletter : record.head? = some 0x45)
      (h : EndOffence size line record error) : Offence (some header) error

end

/-! ## A record fits, or there is an offence -/

section
variable (size : UInt32) (line : Nat) {record : Text}

/-- A field of at most six bytes is below `2 ^ 24`. -/
theorem field_lt {low high : Nat} {n : UInt32} (h : decodeAddress (columns record low high) = .ok n)
    (hwidth : high ≤ low + 6) : n.toNat < 2 ^ 24 := by
  have hlength : (columns record low high).length ≤ 6 := by
    rw [columns, List.length_take]
    omega
  exact Nat.lt_of_lt_of_le (Numeral.decodeAddress_lt h)
    (Nat.pow_le_pow_right (show 0 < 16 by decide) hlength)

/-- The sum of two fields does not wrap. -/
theorem toNat_add_field {a b : UInt32} (ha : a.toNat < 2 ^ 24) (hb : b.toNat < 2 ^ 24) :
    (a + b).toNat = a.toNat + b.toNat := by
  rw [UInt32.toNat_add, Nat.mod_eq_of_lt (by omega)]

theorem header_cases (hletter : record.head? = some 0x48) :
    (∃ header, IsHeader size.toNat record header) ∨
      ∃ error, HeaderOffence size line record error := by
  by_cases hlength : record.length = 19
  swap
  · exact .inr ⟨_, .length hlength⟩
  cases hstart : decodeAddress (columns record 7 13) with
  | error flaw => exact .inr ⟨_, .start hlength hstart⟩
  | ok start =>
    cases hextent : decodeAddress (columns record 13 19) with
    | error flaw => exact .inr ⟨_, .extent hlength hstart hextent⟩
    | ok length =>
      by_cases hfits : start.toNat + length.toNat ≤ size.toNat
      · exact .inl ⟨⟨_, start, length⟩, hletter, hlength, rfl, hstart, hextent, hfits⟩
      · have hreached :=
          toNat_add_field (field_lt hstart (by decide)) (field_lt hextent (by decide))
        exact .inr ⟨_, .beyond hlength hstart hextent (Nat.lt_of_not_le hfits) hreached⟩

theorem text_cases {header : Header} (hletter : record.head? = some 0x54)
    (hheader : header.start.toNat + header.length.toNat < 2 ^ 32) :
    (∃ text, IsText header record text) ∨ ∃ error, TextOffence line record header error := by
  by_cases hlength : record.length < 9
  · exact .inr ⟨_, .short hlength⟩
  rw [Nat.not_lt] at hlength
  cases haddress : decodeAddress (columns record 1 7) with
  | error flaw => exact .inr ⟨_, .address hlength haddress⟩
  | ok address =>
    by_cases hcount : ∃ n, decodeAddress (columns record 7 9) = .ok n ∧ n.toNat ≤ 30
    swap
    · refine .inr ⟨_, .count hlength haddress fun n hn => ?_⟩
      exact Nat.lt_of_not_le fun hmost => hcount ⟨n, hn, hmost⟩
    obtain ⟨n, hcount, hmost⟩ := hcount
    by_cases hdigits : ∃ data, HexPairs (record.drop 9) data ∧ data.length = n.toNat ∧ n.toNat ≠ 0
    swap
    · refine .inr ⟨_, .digits hlength haddress hcount hmost ?_⟩
      refine Decidable.or_iff_not_imp_left.2 fun hne data hdata hn => ?_
      exact hdigits ⟨data, hdata, hn, hne⟩
    obtain ⟨data, hdata, hn, hne⟩ := hdigits
    by_cases hrange : header.start.toNat ≤ address.toNat ∧
        address.toNat + n.toNat ≤ header.start.toNat + header.length.toNat
    · refine .inl ⟨⟨address, data⟩, hletter, hlength, haddress, ⟨n, hcount, hn.symm⟩, hdata, ?_, ?_,
        hrange.1, ?_⟩ <;> dsimp only <;> omega
    · have hstop : (header.start + header.length).toNat =
          header.start.toNat + header.length.toNat := by
        rw [UInt32.toNat_add, Nat.mod_eq_of_lt hheader]
      have hreached := toNat_add_field (field_lt haddress (by decide)) (field_lt hcount (by decide))
      exact .inr ⟨_, .range hlength haddress hcount hmost hdata hn hne (by omega) hstop hreached⟩

theorem end_cases (hletter : record.head? = some 0x45) :
    (∃ entry, IsEnd size.toNat record entry) ∨ ∃ error, EndOffence size line record error := by
  by_cases hlength : record.length = 7
  swap
  · exact .inr ⟨_, .length hlength⟩
  cases hentry : decodeAddress (columns record 1 7) with
  | error flaw => exact .inr ⟨_, .entry hlength hentry⟩
  | ok entry =>
    by_cases hinside : entry.toNat < size.toNat
    · exact .inl ⟨entry, hletter, hlength, hentry, hinside⟩
    · exact .inr ⟨_, .beyond hlength hentry (Nat.le_of_not_lt hinside)⟩

/-- **A record fits its place, or there is an offence.** -/
theorem record_cases (hne : record ≠ []) {header? : Option Header}
    (hheader : ∀ header, header? = some header →
      header.start.toNat + header.length.toNat < 2 ^ 32) :
    (header? = none ∧ ∃ header, IsHeader size.toNat record header) ∨
      (∃ header, header? = some header ∧ ∃ text, IsText header record text) ∨
      (∃ header, header? = some header ∧ ∃ entry, IsEnd size.toNat record entry) ∨
      ∃ error, Offence size line record header? error := by
  obtain ⟨letter, rest, rfl⟩ := List.exists_cons_of_ne_nil hne
  cases header? with
  | none =>
    by_cases hletter : letter = 0x48
    · subst hletter
      rcases header_cases size line (show (0x48 :: rest).head? = _ from rfl) with h | ⟨error, h⟩
      · exact .inl ⟨rfl, h⟩
      · exact .inr (.inr (.inr ⟨error, .header rfl h⟩))
    · refine .inr (.inr (.inr ⟨_, .expectedHeader hne ?_⟩))
      rwa [List.head?_cons, ne_eq, Option.some.injEq]
  | some header =>
    by_cases hletter : letter ∈ [0x48, 0x54, 0x45]
    · simp only [List.mem_cons, List.not_mem_nil, or_false] at hletter
      rcases hletter with rfl | rfl | rfl
      · exact .inr (.inr (.inr ⟨_, .duplicateHeader rfl⟩))
      · rcases text_cases line (show (0x54 :: rest).head? = _ from rfl) (hheader header rfl) with
          h | ⟨error, h⟩
        · exact .inr (.inl ⟨header, rfl, h⟩)
        · exact .inr (.inr (.inr ⟨error, .text rfl h⟩))
      · rcases end_cases size line (show (0x45 :: rest).head? = _ from rfl) with h | ⟨error, h⟩
        · exact .inr (.inr (.inl ⟨header, rfl, h⟩))
        · exact .inr (.inr (.inr ⟨error, .finish rfl h⟩))
    · exact .inr (.inr (.inr ⟨_, .unknownKind rfl hletter⟩))

end

end ObjectFormat

namespace Machine

open ObjectFormat

/-! ## The readers agree with the format -/

section
variable {machine : Machine} {record : Text} {error : LoadError} (line : Nat)

theorem readHeader_of_isHeader {header : Header} (h : IsHeader machine.size.toNat record header) :
    machine.readHeader line record = .ok header := by
  have hsum := toNat_add_field (field_lt h.start (by decide)) (field_lt h.extent (by decide))
  have hfits : ¬ machine.size < header.start + header.length := by
    rw [UInt32.lt_iff_toNat_lt, hsum]
    exact Nat.not_lt.2 h.fits
  rw [readHeader, if_neg (fun hne => hne h.length), h.start]
  dsimp only
  rw [h.extent]
  dsimp only
  rw [if_neg hfits, ← h.name]

theorem readHeader_of_offence (h : HeaderOffence machine.size line record error) :
    machine.readHeader line record = .error error := by
  unfold readHeader
  cases h with
  | length h => rw [if_pos h]
  | start hlength h => rw [if_neg (fun hne => hne hlength), h]
  | extent hlength hstart h =>
    rw [if_neg (fun hne => hne hlength), hstart]
    dsimp only
    rw [h]
  | beyond hlength hstart hextent h hreached =>
    have hsum := toNat_add_field (field_lt hstart (by decide)) (field_lt hextent (by decide))
    rw [if_neg (fun hne => hne hlength), hstart]
    dsimp only
    rw [hextent]
    dsimp only
    rw [if_pos (by rwa [UInt32.lt_iff_toNat_lt, hsum]),
      UInt32.toNat_inj.1 (hsum.trans hreached.symm)]

theorem readEnd_of_isEnd {entry : UInt32} (h : IsEnd machine.size.toNat record entry) :
    machine.readEnd line record = .ok entry := by
  rw [readEnd, if_neg (fun hne => hne h.length), h.field]
  dsimp only
  rw [if_pos (UInt32.lt_iff_toNat_lt.2 h.inside)]

theorem readEnd_of_offence (h : EndOffence machine.size line record error) :
    machine.readEnd line record = .error error := by
  unfold readEnd
  cases h with
  | length h => rw [if_pos h]
  | entry hlength h => rw [if_neg (fun hne => hne hlength), h]
  | beyond hlength hentry h =>
    rw [if_neg (fun hne => hne hlength), hentry]
    dsimp only
    rw [if_neg (by rw [UInt32.lt_iff_toNat_lt]; exact Nat.not_lt.2 h)]

end

section
variable {header : Header} {record : Text} {error : LoadError} (line : Nat)

/-- What is left to check once both fields of a text record are read. -/
theorem readText_of_fields {address n : UInt32} (hlength : 9 ≤ record.length)
    (haddress : Numeral.decodeAddress (columns record 1 7) = .ok address)
    (hcount : Numeral.decodeAddress (columns record 7 9) = .ok n) (hmost : n.toNat ≤ 30) :
    readText header line record =
      match Constant.content? .hexadecimal (record.drop 9) with
      | none => .error (.record line .lengthMismatch)
      | some data =>
        if (record.drop 9).length ≠ 2 * n.toNat then .error (.record line .lengthMismatch)
        else if address < header.start ∨ header.start + header.length < address + n then
          .error (.address line (header.start + header.length) (address + n))
        else .ok (address, data) := by
  have hmax : ¬ maxText < n := by
    rw [UInt32.lt_iff_toNat_lt]
    exact Nat.not_lt.2 hmost
  unfold readText
  rw [if_neg (Nat.not_lt.2 hlength), haddress]
  dsimp only
  rw [hcount]
  exact if_neg hmax

variable (hheader : header.start.toNat + header.length.toNat < 2 ^ 32)
include hheader

/-- The check of the range, in exact numbers. -/
theorem outside_iff {address n : UInt32} (haddress : address.toNat < 2 ^ 24)
    (hn : n.toNat < 2 ^ 24) :
    (address < header.start ∨ header.start + header.length < address + n) ↔
      address.toNat < header.start.toNat ∨
        header.start.toNat + header.length.toNat < address.toNat + n.toNat := by
  rw [UInt32.lt_iff_toNat_lt, UInt32.lt_iff_toNat_lt, toNat_add_field haddress hn,
    UInt32.toNat_add, Nat.mod_eq_of_lt hheader]

theorem readText_of_isText {text : TextRecord} (h : IsText header record text) :
    readText header line record = .ok (text.start, text.data) := by
  obtain ⟨n, hcount, hn⟩ := h.count
  have hrange := outside_iff hheader (field_lt h.address (by decide)) (field_lt hcount (by decide))
  have hlow := h.low
  have hhigh := h.high
  rw [readText_of_fields line h.length h.address hcount (hn ▸ h.most),
    h.digits.content? (List.length_pos_iff.1 h.least)]
  dsimp only
  rw [if_neg (fun hne => hne (by rw [h.digits.length, hn])), if_neg (by rw [hrange]; omega)]

theorem readText_of_offence (h : TextOffence line record header error) :
    readText header line record = .error error := by
  cases h with
  | short h => rw [readText, if_pos h]
  | address hlength h => rw [readText, if_neg (Nat.not_lt.2 hlength), h]
  | count hlength haddress h =>
    rw [readText, if_neg (Nat.not_lt.2 hlength), haddress]
    dsimp only
    cases hcount : Numeral.decodeAddress (columns record 7 9) with
    | error flaw => rfl
    | ok n =>
      have hmax : maxText < n := UInt32.lt_iff_toNat_lt.2 (show 30 < n.toNat from h n hcount)
      dsimp only
      rw [if_pos hmax]
  | digits hlength haddress hcount hmost h =>
    rw [readText_of_fields line hlength haddress hcount hmost]
    cases hdata : Constant.content? .hexadecimal (record.drop 9) with
    | none => rfl
    | some data =>
      dsimp only
      rw [if_pos]
      intro hlength
      -- two digits for each byte, so there are bytes and they are pairs
      have hpairs := Constant.hexPairs_of_content? hdata hlength
      have hne := List.length_pos_iff.2 (Constant.content?_ne_nil hdata)
      have hcount := hpairs.length
      rcases h with h | h
      · omega
      · exact h data hpairs (by omega)
  | range hlength haddress hcount hmost hdigits hn hne h hstop hreached =>
    have hrange := outside_iff hheader (field_lt haddress (by decide)) (field_lt hcount (by decide))
    have hsum := toNat_add_field (field_lt haddress (by decide)) (field_lt hcount (by decide))
    have hend := hstop
    rw [← Nat.mod_eq_of_lt hheader, ← UInt32.toNat_add, UInt32.toNat_inj] at hend
    rw [readText_of_fields line hlength haddress hcount hmost,
      hdigits.content? (List.length_pos_iff.1 (by omega))]
    dsimp only
    rw [if_neg (fun hne => hne (by rw [hdigits.length, hn])), if_pos (hrange.2 h), hend,
      UInt32.toNat_inj.1 (hsum.trans hreached.symm)]

end

end Machine

end SicXe
