import SicXe.Proofs.CheckedAccess
import SicXe.Proofs.LiteralForms

/-!
# Hexadecimal constants and written bytes

Bytes are written with two upper case digits each, and a hexadecimal constant is read with digits of
either case and in any number. The one undoes the other up to the spelling:

* `Text.upperCase`, `Numeral.digit?_upperByte`: a digit has its value in either case.
* `Constant.hexPairs_iff_hexBytes`: pairs of digits are the written bytes in some case.
* `content?_eq_some_iff_hexBytes`: a constant stands for the bytes whose written form it spells.
* `Word.injOn_ofBytes_iff`: bytes of one length are told apart by their word, up to four of them.
* `hexadecimal_inverse`: all of it together.
-/

namespace SicXe

namespace Text

/-- The byte in upper case: a letter from `a` to `z` becomes that from `A` to `Z`. -/
def upperByte (b : UInt8) : UInt8 := if 0x61 ≤ b.toNat ∧ b.toNat ≤ 0x7A then b - 0x20 else b

/-- The text in upper case. -/
def upperCase (t : Text) : Text := t.map upperByte

theorem toNat_upperByte (b : UInt8) : (upperByte b).toNat =
    if 0x61 ≤ b.toNat ∧ b.toNat ≤ 0x7A then b.toNat - 0x20 else b.toNat := by
  unfold upperByte
  split
  case isTrue h =>
    have hle : (0x20 : UInt8) ≤ b := UInt8.le_iff_toNat_le.2 (Nat.le_trans (by decide) h.1)
    rw [UInt8.toNat_sub_of_le _ _ hle]
    rfl
  case isFalse => rfl

end Text

namespace Numeral

open Text (upperByte toNat_upperByte)

/-- **A digit has its value in either case.** -/
theorem digit?_upperByte (base : Nat) (b : UInt8) : digit? base (upperByte b) = digit? base b := by
  have hvalue : digitValue? (upperByte b) = digitValue? b := by
    simp only [digitValue?, toNat_upperByte]
    grind
  rw [digit?, digit?, hvalue]

theorem upperByte_of_digit? {b : UInt8} {d : Nat} (h : digit? 16 b = some d) :
    upperByte b = upperDigit d := by
  obtain ⟨hlt, hdigit⟩ := (digit?_eq_some_iff (by decide)).1 h
  rw [← UInt8.toNat_inj, toNat_upperByte, upperDigit, UInt8.toNat_ofNat']
  split at hdigit
  case isTrue hd =>
    rw [if_neg (by omega), if_pos hd]
    omega
  case isFalse hd =>
    rw [if_neg hd]
    split <;> omega

theorem upperByte_eq_upperDigit_iff {b : UInt8} {d : Nat} (hd : d < 16) :
    upperByte b = upperDigit d ↔ digit? 16 b = some d := by
  refine ⟨fun h => ?_, upperByte_of_digit?⟩
  rw [← digit?_upperByte, h, digit?_upperDigit hd]

end Numeral

namespace Constant

open Numeral (hexBytes)
open Checked (padded hexPairs_padded_iff)

variable {content digits data : Text}

/-! ## Pairs of digits -/

/-- **Pairs of digits** are the written form of their bytes, up to the case of the letters. -/
theorem hexPairs_iff_hexBytes : HexPairs digits data ↔ hexBytes data = digits.upperCase := by
  constructor
  · intro h
    induction h with
    | nil => rfl
    | @cons high low b h l digits data hhigh hlow hb _ ih =>
      have hlt := Numeral.digit?_lt hlow
      rw [Numeral.hexBytes_cons, ih, show b.toNat / 16 = h by omega, show b.toNat % 16 = l by omega,
        ← Numeral.upperByte_of_digit? hhigh, ← Numeral.upperByte_of_digit? hlow]
      rfl
  · intro h
    induction data generalizing digits with
    | nil =>
      cases List.map_eq_nil_iff.1 h.symm
      exact .nil
    | cons b data ih =>
      -- the two digits of the first byte, and those of the others
      obtain ⟨high, digits, rfl, hhigh, hrest⟩ := List.map_eq_cons_iff.1 h.symm
      obtain ⟨low, digits, rfl, hlow, hrest⟩ := List.map_eq_cons_iff.1 hrest
      have hb := b.toNat_lt
      refine .cons ((Numeral.upperByte_eq_upperDigit_iff (by omega)).1 hhigh)
        ((Numeral.upperByte_eq_upperDigit_iff (by omega)).1 hlow) ?_ (ih hrest.symm)
      omega

/-! ## Constants -/

/-- **A hexadecimal content** stands for the bytes whose written form it spells. -/
theorem content?_eq_some_iff_hexBytes : content? .hexadecimal content = some data ↔
    content ≠ [] ∧ hexBytes data = (padded content).upperCase := by
  by_cases hne : content = []
  · simp [hne, content?]
  · rw [and_iff_right hne, ← hexPairs_iff_hexBytes, hexPairs_padded_iff hne]

theorem decode?_hexadecimal (content : Text) :
    decode? (Text.ofString "X'" ++ content ++ Text.ofString "'") =
      content? .hexadecimal content := by
  have hsplit : split? (Text.ofString "X'" ++ content ++ Text.ofString "'") =
      some (.hexadecimal, content) := split?_eq_some_iff.2 rfl
  rw [decode?, hsplit]

theorem upperCase_padded (content : Text) : (padded content).upperCase =
    (if content.length % 2 = 1 then Text.ofString "0" else []) ++ content.upperCase := by
  unfold padded
  split <;> rfl

end Constant

/-! ## Words -/

namespace Word

/-- What stands before the last four bytes does not count. -/
theorem ofBytes_cons {data : Text} (h : 4 ≤ data.length) (b : UInt8) :
    ofBytes (b :: data) = ofBytes data := by
  obtain ⟨k, hk⟩ := Nat.exists_eq_add_of_le h
  rw [← UInt32.toNat_inj, toNat_ofBytes, toNat_ofBytes, bigEndian_cons, hk, pow_add, Nat.mul_assoc]
  exact Nat.add_mul_mod_self_left _ (2 ^ 32) _

/-- **Bytes of one length** are told apart by their word if and only if there are at most four. -/
theorem injOn_ofBytes_iff (n : Nat) :
    Set.InjOn ofBytes {data : Text | data.length = n} ↔ n ≤ 4 := by
  constructor
  · intro h
    by_contra hlong
    obtain ⟨k, rfl⟩ := Nat.exists_eq_add_of_le (Nat.lt_of_not_le hlong)
    let zeros : Text := List.replicate (4 + k) 0
    have hzeros : zeros.length = 4 + k := List.length_replicate
    have hlength (b : UInt8) : (b :: zeros).length = 5 + k := by
      rw [List.length_cons, hzeros]
      omega
    have hsame : ofBytes (1 :: zeros) = ofBytes (0 :: zeros) := by
      rw [ofBytes_cons (by omega), ofBytes_cons (by omega)]
    cases h (hlength 1) (hlength 0) hsame
  · intro hn data hdata data' hdata' h
    refine bigEndian_inj (hdata.trans hdata'.symm) ?_
    rw [← toNat_ofBytes_of_length_le (hdata.trans_le hn), h,
      toNat_ofBytes_of_length_le (hdata'.trans_le hn)]

end Word

/-- **Written bytes and hexadecimal constants.** Bytes are read back from the constant of their
written form. The constants that stand for given bytes are those whose content spells the written
form: in upper case, with a zero in front if the number of digits is odd. The word of bytes is
their big-endian value, as far as 32 bits hold it, so that it tells up to four bytes apart. -/
theorem hexadecimal_inverse :
    (∀ data : Text, data ≠ [] → Constant.decode?
      (Text.ofString "X'" ++ Numeral.hexBytes data ++ Text.ofString "'") = some data) ∧
    (∀ content data : Text,
      Constant.decode? (Text.ofString "X'" ++ content ++ Text.ofString "'") = some data ↔
        content ≠ [] ∧ Numeral.hexBytes data =
          (if content.length % 2 = 1 then Text.ofString "0" else []) ++ content.upperCase) ∧
    (∀ data : Text, (Word.ofBytes data).toNat =
      Nat.ofDigits 256 (data.map UInt8.toNat).reverse % 2 ^ 32) ∧
    ∀ n : Nat, Set.InjOn Word.ofBytes {data : Text | data.length = n} ↔ n ≤ 4 := by
  refine ⟨fun data hne => ?_, fun content data => ?_, fun data => ?_, Word.injOn_ofBytes_iff⟩
  · rw [Constant.decode?_hexadecimal, Constant.content?_hexBytes hne]
  · rw [Constant.decode?_hexadecimal, Constant.content?_eq_some_iff_hexBytes,
      Constant.upperCase_padded]
  · rw [Word.toNat_ofBytes, bigEndian_eq_ofDigits]

/-- Three digits of either case, and the written form of the bytes that they stand for. -/
theorem hexadecimal_inverse_odd :
    Constant.decode? "X'aBc'" = some [0x0A, 0xBC] ∧ Numeral.hexBytes [0x0A, 0xBC] = "0ABC" ∧
      Constant.decode? "X'0ABC'" = some [0x0A, 0xBC] := by
  have hread : Constant.decode? "X'aBc'" = some [0x0A, 0xBC] := by decide
  refine ⟨hread, (hexadecimal_inverse.2.1 "aBc" _).1 hread |>.2, ?_⟩
  exact hexadecimal_inverse.1 [0x0A, 0xBC] (by decide)

end SicXe
