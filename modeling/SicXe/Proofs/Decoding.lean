import Mathlib.Algebra.Order.Ring.Int
import SicXe.Instruction

/-!
# Bit fields and the decoder

* `Word.toNat_mask`, `Word.fitsSigned_iff`, `Word.fitsUnsigned_iff`: fields in integers.
* `decode?`: the fields of an instruction, read off the big-endian number that its bytes make by
  division alone. It shares nothing with the encoder.
* `decode?_sic`, `decode?_three`, `decode?_four`: the decoder reads back opcode, addressing bits and
  the low bits of the value that were laid out.
* `bigEndian_word`, `toNat_registerByte`: the same for words and pairs of registers.
-/

namespace SicXe

/-! ## Fields in integers -/

namespace Word

theorem toNat_lowWord (value : Int64) :
    (value.toUInt64.toUInt32.toNat : Int) = value.toInt % 2 ^ 32 := by
  have hcond : value.toInt = if 2 * value.toUInt64.toNat < 2 ^ 64 then
      (value.toUInt64.toNat : Int) else value.toUInt64.toNat - (2 ^ 64 : Nat) :=
    BitVec.toInt_eq_toNat_cond _
  rw [UInt64.toNat_toUInt32, hcond]
  split <;> omega

theorem toNat_lowByte (value : Int64) :
    (value.toUInt64.toUInt8.toNat : Int) = value.toInt % 256 := by
  have hword := toNat_lowWord value
  rw [UInt64.toNat_toUInt32] at hword
  rw [UInt64.toNat_toUInt8]
  omega

theorem toNat_mask (value : Int64) (bits : Nat) (h : bits ≤ 32) :
    ((mask value bits).toNat : Int) = value.toInt % 2 ^ bits := by
  have hones : (if bits < 32 then UInt32.ofNat (Nat.pow 2 bits) - 1 else 0xFFFFFFFF).toNat =
      2 ^ bits - 1 := by
    split
    case isTrue hlt =>
      have hpos : 0 < 2 ^ bits := Nat.two_pow_pos bits
      have hpow : 2 ^ bits < 2 ^ 32 := Nat.pow_lt_pow_right (by decide) hlt
      rw [UInt32.toNat_sub, UInt32.toNat_ofNat', Nat.pow_eq, Nat.mod_eq_of_lt hpow]
      simp only [UInt32.reduceToNat]
      omega
    case isFalse hge =>
      rw [show bits = 32 by omega]
      rfl
  have hdvd : (2 : Int) ^ bits ∣ 2 ^ 32 := ⟨2 ^ (32 - bits), by rw [← Int.pow_add]; congr 1; omega⟩
  dsimp only [mask]
  rw [UInt32.toNat_and, hones, Nat.and_two_pow_sub_one_eq_mod]
  push_cast
  rw [toNat_lowWord, Int.emod_emod_of_dvd _ hdvd]

theorem toInt_power {bits : Nat} (h : bits < 63) : (power bits).toInt = 2 ^ bits := by
  have hpow : (2 : Nat) ^ bits < 2 ^ 63 := Nat.pow_lt_pow_right (by decide) h
  rw [power, if_pos (by omega), Nat.pow_eq, Int64.toInt_ofNat_of_lt hpow]
  push_cast
  rfl

theorem fitsSigned_iff {value : Int64} {bits : Nat} (h : bits < 63) :
    fitsSigned value (bits + 1) = true ↔ -2 ^ bits ≤ value.toInt ∧ value.toInt < 2 ^ bits := by
  have hpow : (2 : Int) ^ bits < 2 ^ 63 := by
    exact_mod_cast Nat.pow_lt_pow_right (a := 2) (by decide) h
  have hpos : (0 : Int) < 2 ^ bits := Int.pow_pos (by decide)
  have hneg : (-power bits).toInt = -2 ^ bits := by
    rw [Int64.toInt_neg, toInt_power h]
    exact Int.bmod_eq_of_le (by omega) (by omega)
  simp only [fitsSigned, Nat.add_one_ne_zero, ↓reduceIte, Nat.add_sub_cancel, Bool.and_eq_true,
    decide_eq_true_eq, Int64.le_iff_toInt_le, Int64.lt_iff_toInt_lt, hneg, toInt_power h]

theorem fitsUnsigned_iff {value : Int64} {bits : Nat} (h : bits < 63) :
    fitsUnsigned value bits = true ↔ 0 ≤ value.toInt ∧ value.toInt < 2 ^ bits := by
  simp only [fitsUnsigned, Bool.and_eq_true, decide_eq_true_eq, Int64.le_iff_toInt_le,
    Int64.lt_iff_toInt_lt, toInt_power h, Int64.toInt_zero]

end Word

/-! ## The decoder -/

/-- The number that bytes make, the first one highest. -/
def bigEndian (object : Text) : Nat := object.foldl (fun value b => value * 256 + b.toNat) 0

theorem foldl_bigEndian_lt : ∀ (object : Text) (value : Nat),
    object.foldl (fun value b => value * 256 + b.toNat) value < (value + 1) * 256 ^ object.length
  | [], value => by simp
  | b :: object, value => by
    have := b.toNat_lt
    calc (b :: object).foldl (fun value b => value * 256 + b.toNat) value
        < (value * 256 + b.toNat + 1) * 256 ^ object.length := foldl_bigEndian_lt object _
      _ ≤ (value + 1) * 256 * 256 ^ object.length := Nat.mul_le_mul_right _ (by omega)
      _ = (value + 1) * 256 ^ (b :: object).length := by
        rw [List.length_cons, Nat.pow_succ', Nat.mul_assoc]

theorem lt_pow_bigEndian (object : Text) : bigEndian object < 256 ^ object.length := by
  simpa [bigEndian] using foldl_bigEndian_lt object 0

namespace Word

theorem toNat_shift_or (value : UInt32) (b : UInt8) :
    ((value <<< 8) ||| b.toUInt32).toNat = (value.toNat * 256 + b.toNat) % 2 ^ 32 := by
  have hb := b.toNat_lt
  have hv := value.toNat_lt
  have hor := Nat.two_pow_add_eq_or_of_lt (i := 8) (b := b.toNat) hb (value.toNat % 2 ^ 24)
  rw [UInt32.toNat_or, UInt32.toNat_shiftLeft, UInt8.toNat_toUInt32]
  simp only [UInt32.reduceToNat, Nat.reduceMod, Nat.shiftLeft_eq]
  rw [show value.toNat * 2 ^ 8 % 2 ^ 32 = 2 ^ 8 * (value.toNat % 2 ^ 24) by omega, ← hor]
  omega

theorem toNat_foldl_shift_or : ∀ (data : Text) {value : UInt32} {n : Nat},
    value.toNat = n % 2 ^ 32 →
    (data.foldl (fun (value : UInt32) b => (value <<< 8) ||| b.toUInt32) value).toNat =
      data.foldl (fun value b => value * 256 + b.toNat) n % 2 ^ 32
  | [], value, n, h => h
  | b :: data, value, n, h => by
    rw [List.foldl_cons, List.foldl_cons]
    exact toNat_foldl_shift_or data (by rw [toNat_shift_or, h]; omega)

theorem toNat_ofBytes (data : Text) : (ofBytes data).toNat = bigEndian data % 2 ^ 32 :=
  toNat_foldl_shift_or data rfl

theorem toNat_ofBytes_of_length_le {data : Text} (h : data.length ≤ 4) :
    (ofBytes data).toNat = bigEndian data := by
  have hlt := lt_pow_bigEndian data
  have hpow : 256 ^ data.length ≤ 256 ^ 4 := Nat.pow_le_pow_right (by decide) h
  rw [toNat_ofBytes, Nat.mod_eq_of_lt (by omega)]

end Word

/-- One bit of a number. -/
def bitAt (word place : Nat) : Bool := word / 2 ^ place % 2 = 1

/-- The fields of an instruction. -/
structure Decoded where
  opcode : Nat
  flags : Flags
  field : Nat
  deriving DecidableEq, Repr

/-- The fields of formats 3 and 4, whose address field has the given number of bits: six bits of the
opcode, then n, i, x, b, p and e, then the address field. -/
def decodeExtended (bits word : Nat) : Decoded :=
  { opcode := word / 2 ^ (bits + 6)
    flags :=
      { n := bitAt word (bits + 5)
        i := bitAt word (bits + 4)
        x := bitAt word (bits + 3)
        b := bitAt word (bits + 2)
        p := bitAt word (bits + 1)
        e := bitAt word bits }
    field := word % 2 ^ bits }

/-- The fields of an instruction that addresses memory, from its bytes. -/
def decode? (format : Format) (object : Text) : Option Decoded :=
  let word := bigEndian object
  match format, object.length with
  | .sic, 3 => some ⟨word / 2 ^ 16, { x := bitAt word 15 }, word % 2 ^ 15⟩
  | .three, 3 => some (decodeExtended 12 word)
  | .four, 4 => some (decodeExtended 20 word)
  | _, _ => none

theorem decode?_three_field {object : Text} {decoded : Decoded}
    (h : decode? .three object = some decoded) :
    object.length = 3 ∧ decoded.field < 2 ^ 12 := by
  unfold decode? at h
  split at h
  case h_2 hlen =>
    cases h
    exact ⟨hlen, Nat.mod_lt (bigEndian object) (Nat.two_pow_pos 12)⟩
  all_goals contradiction

/-! ## What the encoder lays out -/

namespace Instruction

theorem toNat_byteAt (value shift : UInt32) (h : shift.toNat < 32) :
    (byteAt value shift).toNat = value.toNat / 2 ^ shift.toNat % 256 := by
  rw [byteAt, UInt32.toNat_toUInt8, UInt32.toNat_shiftRight, Nat.mod_eq_of_lt h,
    Nat.shiftRight_eq_div_pow]

theorem toNat_and_ones (b : UInt8) (bits : Nat) {ones : UInt8} (h : ones.toNat = 2 ^ bits - 1) :
    (b &&& ones).toNat = b.toNat % 2 ^ bits := by
  rw [UInt8.toNat_and, h, Nat.and_two_pow_sub_one_eq_mod]

/-- Two half bytes in one byte. -/
theorem toNat_halves (high low : UInt8) :
    ((high &&& 0xF) * 16 ||| (low &&& 0xF)).toNat = high.toNat % 16 * 16 + low.toNat % 16 := by
  have hhigh : (high &&& 0xF).toNat = high.toNat % 16 := toNat_and_ones high 4 rfl
  have hlow : (low &&& 0xF).toNat = low.toNat % 16 := toNat_and_ones low 4 rfl
  have hor : 16 * (high.toNat % 16) + low.toNat % 16 = 16 * (high.toNat % 16) ||| low.toNat % 16 :=
    Nat.two_pow_add_eq_or_of_lt (i := 4) (by omega) _
  rw [UInt8.toNat_or, UInt8.toNat_mul, hhigh, hlow]
  simp only [UInt8.reduceToNat]
  rw [Nat.mod_eq_of_lt (by omega), Nat.mul_comm, ← hor]

theorem toNat_toByte (flags : Flags) :
    flags.toByte.toNat = 32 * flags.n.toNat + 16 * flags.i.toNat + 8 * flags.x.toNat +
      4 * flags.b.toNat + 2 * flags.p.toNat + flags.e.toNat := by
  obtain ⟨n, i, x, b, p, e⟩ := flags
  revert n i x b p e
  decide

theorem toNat_opcodeByte (opcode : UInt8) (flags : Flags) :
    (opcodeByte opcode flags).toNat =
      opcode.toNat / 4 * 4 + 2 * flags.n.toNat + flags.i.toNat := by
  have hupper : ∀ n < 256, n &&& 0xFC = n / 4 * 4 := by decide +kernel
  have hlow : (flags.toByte / 16 &&& 0x3).toNat = flags.toByte.toNat / 16 % 4 :=
    toNat_and_ones (flags.toByte / 16) 2 rfl
  have hor : 4 * (opcode.toNat / 4) + flags.toByte.toNat / 16 % 4 =
      4 * (opcode.toNat / 4) ||| flags.toByte.toNat / 16 % 4 :=
    Nat.two_pow_add_eq_or_of_lt (i := 2) (by omega) _
  have hn := flags.n.toNat_lt
  have hi := flags.i.toNat_lt
  have hx := flags.x.toNat_lt
  have hb := flags.b.toNat_lt
  have hp := flags.p.toNat_lt
  have he := flags.e.toNat_lt
  have hbyte := toNat_toByte flags
  rw [opcodeByte, UInt8.toNat_or, UInt8.toNat_and, hlow]
  simp only [UInt8.reduceToNat]
  rw [hupper _ opcode.toNat_lt, Nat.mul_comm, ← hor]
  omega

theorem toNat_flagByte (flags : Flags) (high : UInt8) :
    (flagByte flags high).toNat =
      128 * flags.x.toNat + 64 * flags.b.toNat + 32 * flags.p.toNat + 16 * flags.e.toNat +
        high.toNat % 16 := by
  have hx := flags.x.toNat_lt
  have hb := flags.b.toNat_lt
  have hp := flags.p.toNat_lt
  have he := flags.e.toNat_lt
  have hbyte := toNat_toByte flags
  rw [flagByte, toNat_halves]
  omega

theorem toNat_indexByte (indexed : Bool) (high : UInt8) :
    (indexByte indexed high).toNat = 128 * indexed.toNat + high.toNat % 128 := by
  have hlow : (high &&& 0x7F).toNat = high.toNat % 128 := toNat_and_ones high 7 rfl
  have hor : 128 * indexed.toNat + high.toNat % 128 = 128 * indexed.toNat ||| high.toNat % 128 :=
    Nat.two_pow_add_eq_or_of_lt (i := 7) (by omega) _
  rw [indexByte, UInt8.toNat_or, hlow]
  cases indexed <;> exact hor.symm

theorem toNat_registerByte (first second : UInt8) :
    (registerByte first second).toNat = first.toNat % 16 * 16 + second.toNat % 16 :=
  toNat_halves first second

/-! ## Reading back -/

theorem bitAt_eq {word place : Nat} (flag : Bool) (h : word / 2 ^ place % 2 = flag.toNat) :
    bitAt word place = flag := by
  rw [bitAt, h]
  cases flag <;> rfl

theorem decodeExtended_eq {bits word opcode field : Nat} {flags : Flags} (hf : field < 2 ^ bits)
    (hw : word = (opcode * 64 + flags.toByte.toNat) * 2 ^ bits + field) :
    decodeExtended bits word = ⟨opcode, flags, field⟩ := by
  have hn := flags.n.toNat_lt
  have hi := flags.i.toNat_lt
  have hx := flags.x.toNat_lt
  have hb := flags.b.toNat_lt
  have hp := flags.p.toNat_lt
  have he := flags.e.toNat_lt
  have hbyte := toNat_toByte flags
  have hmod : word % 2 ^ bits = field := by
    rw [hw, Nat.mul_comm, Nat.mul_add_mod, Nat.mod_eq_of_lt hf]
  have hdiv : word / 2 ^ bits = opcode * 64 + flags.toByte.toNat := by
    rw [hw, Nat.mul_comm, Nat.mul_add_div (Nat.two_pow_pos bits), Nat.div_eq_of_lt hf,
      Nat.add_zero]
  have hplace (k : Nat) :
      word / 2 ^ (bits + k) = (opcode * 64 + flags.toByte.toNat) / 2 ^ k := by
    rw [Nat.pow_add, ← Nat.div_div_eq_div_mul, hdiv]
  simp only [decodeExtended, hmod, Decoded.mk.injEq, and_true]
  refine ⟨by rw [hplace]; omega, ?_⟩
  rw [bitAt_eq flags.n (by rw [hplace]; omega),
    bitAt_eq flags.i (by rw [hplace]; omega),
    bitAt_eq flags.x (by rw [hplace]; omega),
    bitAt_eq flags.b (by rw [hplace]; omega),
    bitAt_eq flags.p (by rw [hplace]; omega),
    bitAt_eq flags.e (by rw [hdiv]; omega)]

section
variable (opcode : UInt8) (flags : Flags) (value : UInt32)

theorem decode?_three :
    decode? .three [opcodeByte opcode flags, flagByte flags (byteAt value 8), byteAt value 0] =
      some ⟨opcode.toNat / 4, flags, value.toNat % 2 ^ 12⟩ := by
  refine congrArg some (decodeExtended_eq (by omega) ?_)
  simp only [bigEndian, List.foldl_cons, List.foldl_nil, toNat_opcodeByte, toNat_flagByte,
    toNat_byteAt value 8 (by decide), toNat_byteAt value 0 (by decide),
    toNat_toByte, UInt32.reduceToNat]
  omega

theorem decode?_four :
    decode? .four [opcodeByte opcode flags, flagByte flags (byteAt value 16), byteAt value 8,
        byteAt value 0] =
      some ⟨opcode.toNat / 4, flags, value.toNat % 2 ^ 20⟩ := by
  refine congrArg some (decodeExtended_eq (by omega) ?_)
  simp only [bigEndian, List.foldl_cons, List.foldl_nil, toNat_opcodeByte, toNat_flagByte,
    toNat_byteAt value 16 (by decide), toNat_byteAt value 8 (by decide),
    toNat_byteAt value 0 (by decide), toNat_toByte, UInt32.reduceToNat]
  omega

theorem decode?_sic :
    decode? .sic [opcode, indexByte flags.x (byteAt value 8), byteAt value 0] =
      some ⟨opcode.toNat, { x := flags.x }, value.toNat % 2 ^ 15⟩ := by
  have hx := flags.x.toNat_lt
  have hword : bigEndian [opcode, indexByte flags.x (byteAt value 8), byteAt value 0] =
      opcode.toNat * 2 ^ 16 + flags.x.toNat * 2 ^ 15 + value.toNat % 2 ^ 15 := by
    simp only [bigEndian, List.foldl_cons, List.foldl_nil, toNat_indexByte,
      toNat_byteAt value 8 (by decide), toNat_byteAt value 0 (by decide),
      UInt32.reduceToNat]
    omega
  simp only [decode?, List.length_cons, List.length_nil, hword, Option.some.injEq,
    Decoded.mk.injEq]
  refine ⟨by omega, ?_, by omega⟩
  rw [bitAt_eq flags.x (by omega)]

theorem bigEndian_word :
    bigEndian [byteAt value 16, byteAt value 8, byteAt value 0] = value.toNat % 2 ^ 24 := by
  simp only [bigEndian, List.foldl_cons, List.foldl_nil,
    toNat_byteAt value 16 (by decide), toNat_byteAt value 8 (by decide),
    toNat_byteAt value 0 (by decide), UInt32.reduceToNat]
  omega

end

end Instruction

end SicXe
