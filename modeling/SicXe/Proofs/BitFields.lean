import Mathlib.Data.Int.ModEq
import SicXe.Proofs.Decoding

/-!
# What a bit field holds

A value is cut to a field, and the range tests tell beforehand whether the field still holds it:

* `signed`: what a field stands for if its highest bit is a sign.
* `Word.mask_lt`, `mask_modEq`: a field is below its limit and keeps the value's remainder.
* `fitsSigned_iff_signed`, `fitsUnsigned_iff_mask`: the range tests hold of exactly the values that
  are read back from their fields.
* `signExtend`, `toInt_signExtend`: a field that is widened to 64 bits by its highest bit stands for
  what `signed` says.
* `mask_exact`: all of it together, for fields of 1 to 32 bits.
-/

namespace SicXe

/-- The number that a field of so many bits stands for if its highest bit is a sign. -/
def signed (bits field : Nat) : Int :=
  if 2 * field < 2 ^ bits then field else field - 2 ^ bits

/-- The numbers that a field with a sign can stand for. -/
theorem signed_bounds {bits field : Nat} (h : field < 2 ^ (bits + 1)) :
    -2 ^ bits ≤ signed (bits + 1) field ∧ signed (bits + 1) field < 2 ^ bits := by
  have hcast : ((2 ^ bits : Nat) : Int) = 2 ^ bits := by push_cast; rfl
  have hnat : 2 ^ (bits + 1) = 2 * 2 ^ bits := Nat.pow_succ'
  rw [signed, Int.pow_succ]
  split <;> omega

namespace Word

variable {value : Int64} {bits : Nat}

/-! ## The field of a value -/

theorem mask_lt (value : Int64) (hbits : bits ≤ 32) :
    (mask value bits).toNat < 2 ^ bits := by
  have hmask := toNat_mask value bits hbits
  have hlt := Int.emod_lt_of_pos value.toInt (b := 2 ^ bits) (Int.pow_pos (by decide))
  rw [← hmask] at hlt
  exact_mod_cast hlt

theorem mask_modEq (hbits : bits ≤ 32) :
    ((mask value bits).toNat : Int) ≡ value.toInt [ZMOD 2 ^ bits] := by
  rw [toNat_mask value bits hbits]
  exact Int.mod_modEq _ _

/-- A number that a signed field holds is read back from it. -/
theorem signed_mask (hbits : bits < 32)
    (hlow : -2 ^ bits ≤ value.toInt) (hhigh : value.toInt < 2 ^ bits) :
    signed (bits + 1) (mask value (bits + 1)).toNat = value.toInt := by
  have hmask := toNat_mask value (bits + 1) hbits
  have hpos : (0 : Int) < 2 ^ bits := Int.pow_pos (by decide)
  have hcast : ((2 ^ bits : Nat) : Int) = 2 ^ bits := by push_cast; rfl
  have hnat : 2 ^ (bits + 1) = 2 * 2 ^ bits := Nat.pow_succ'
  rw [Int.pow_succ] at hmask
  rw [signed, Int.pow_succ, hnat]
  by_cases hsign : 0 ≤ value.toInt
  · rw [Int.emod_eq_of_lt hsign (by omega)] at hmask
    rw [if_pos (by omega), hmask]
  · rw [← Int.add_emod_right, Int.emod_eq_of_lt (by omega) (by omega)] at hmask
    rw [if_neg (by omega), hmask]
    omega

/-! ## The range tests -/

/-- **A signed field** reads back exactly the values that fit. -/
theorem fitsSigned_iff_signed (hbits : bits < 32) : fitsSigned value (bits + 1) = true ↔
    signed (bits + 1) (mask value (bits + 1)).toNat = value.toInt := by
  rw [fitsSigned_iff (by omega)]
  constructor
  · rintro ⟨hlow, hhigh⟩
    exact signed_mask hbits hlow hhigh
  · intro h
    rw [← h]
    exact signed_bounds (mask_lt value hbits)

/-- **An unsigned field** reads back exactly the values that fit. -/
theorem fitsUnsigned_iff_mask (hbits : bits ≤ 32) : fitsUnsigned value bits = true ↔
    ((mask value bits).toNat : Int) = value.toInt := by
  rw [fitsUnsigned_iff (by omega), toNat_mask value bits hbits]
  constructor
  · rintro ⟨hlow, hhigh⟩
    exact Int.emod_eq_of_lt hlow hhigh
  · intro h
    have hpos : (0 : Int) < 2 ^ bits := Int.pow_pos (by decide)
    rw [← h]
    exact ⟨Int.emod_nonneg _ hpos.ne', Int.emod_lt_of_pos _ hpos⟩

/-! ## Sign extension -/

/-- A field of so many bits as a number of 64 bits, with copies of its highest bit in front. -/
def signExtend (bits : Nat) (field : UInt32) : Int64 :=
  .ofBitVec ((field.toBitVec.setWidth bits).signExtend 64)

theorem toInt_signExtend {field : UInt32} (hbits : bits ≤ 64) (h : field.toNat < 2 ^ bits) :
    (signExtend bits field).toInt = signed bits field.toNat := by
  have hwhole : (field.toBitVec.setWidth bits).toNat = field.toNat := by
    rw [BitVec.toNat_setWidth]
    exact Nat.mod_eq_of_lt h
  rw [signExtend, Int64.toInt_ofBitVec, BitVec.toInt_signExtend_of_le hbits,
    BitVec.toInt_eq_toNat_cond, hwhole, signed]
  push_cast
  rfl

theorem fitsSigned_iff_signExtend (hpos : 1 ≤ bits) (hbits : bits ≤ 32) :
    fitsSigned value bits = true ↔ signExtend bits (mask value bits) = value := by
  obtain ⟨bits, rfl⟩ := Nat.exists_eq_add_of_le' hpos
  rw [fitsSigned_iff_signed hbits, ← Int64.toInt_inj,
    toInt_signExtend (by omega) (mask_lt value hbits)]

/-- **Bit fields lose nothing that fits.** In a field of 1 to 32 bits, the values that pass the
signed test are those that the field gives back when its highest bit is extended, and the values
that pass the unsigned test are those that are the field. Every field is below its limit and has the
remainder of its value. Two values that pass the signed test have different fields. -/
theorem mask_exact (value : Int64) (hpos : 1 ≤ bits) (hbits : bits ≤ 32) :
    (fitsSigned value bits = true ↔ signExtend bits (mask value bits) = value) ∧
    (fitsUnsigned value bits = true ↔ ((mask value bits).toNat : Int) = value.toInt) ∧
    ((mask value bits).toNat : Int) ≡ value.toInt [ZMOD 2 ^ bits] ∧
    (mask value bits).toNat < 2 ^ bits ∧
    ∀ other : Int64, fitsSigned value bits = true → fitsSigned other bits = true →
      mask value bits = mask other bits → value = other := by
  refine ⟨fitsSigned_iff_signExtend hpos hbits, fitsUnsigned_iff_mask hbits, mask_modEq hbits,
    mask_lt value hbits, fun other hvalue hother hmask => ?_⟩
  calc value = signExtend bits (mask value bits) :=
        ((fitsSigned_iff_signExtend hpos hbits).1 hvalue).symm
    _ = signExtend bits (mask other bits) := by rw [hmask]
    _ = other := (fitsSigned_iff_signExtend hpos hbits).1 hother

/-- The lowest number of 32 bits is read back from all of its bits, and the number that has the same
bits without a sign is not. -/
theorem mask_exact_widest :
    (fitsSigned (-2147483648) 32 = true ∧
      signExtend 32 (mask (-2147483648) 32) = -2147483648) ∧
    (mask 2147483648 32 = mask (-2147483648) 32 ∧ fitsSigned 2147483648 32 = false) := by
  have hlow : fitsSigned (-2147483648) 32 = true := by decide
  have hmask : mask 2147483648 32 = mask (-2147483648) 32 := by decide
  refine ⟨⟨hlow, (mask_exact _ (by decide) (by decide)).1.1 hlow⟩, hmask, ?_⟩
  -- the other number would be the same
  rw [← Bool.not_eq_true]
  intro hfits
  have hsame := (mask_exact 2147483648 (by decide) (by decide)).2.2.2.2 _ hfits hlow hmask
  exact absurd hsame (by decide)

end Word

end SicXe
