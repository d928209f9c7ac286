import SicXe.Proofs.BitFields
import SicXe.Proofs.ObjectCodeRun

/-!
# The object code of a resolved statement

* `encode_near`, `encode_based`, `encode_outOfReach`: a label in format 3 is counted from the
  statement, else from the base register, and is out of reach otherwise; the distances are exact
  integers.
* `encode_absolute`: any other operand that addresses memory has the low bits of its value in the
  address field.
* `IsCode`, `objectOf_isCode`: object code in every format is what opcode and operand ask for.
* `length_objectOf`: it has as many bytes as the format.
-/

namespace SicXe

namespace Instruction

theorem toInt_sub_addresses (a b : UInt32) :
    (Int64.ofInt a.toNat - Int64.ofInt b.toNat).toInt = (a.toNat : Int) - b.toNat := by
  have ha := a.toNat_lt
  have hb := b.toNat_lt
  rw [Int64.toInt_sub, Operand.toInt_ofInt_address, Operand.toInt_ofInt_address]
  exact Int.bmod_eq_of_le (by omega) (by omega)

theorem encode_of_field {inst : Instruction} {field : Displacement}
    (hformat : inst.format ≠ .byte ∧ inst.format ≠ .two)
    (hkind : inst.target.kind ≠ .unresolved) (hfield : inst.displacement = .ok field) :
    inst.encode = layOut inst.format inst.opcode (withOrigin inst.addressingFlags field.origin)
      field.value 0 := by
  unfold encode
  split
  case h_1 h => exact absurd h hformat.1
  case h_2 h => exact absurd h hformat.2
  case h_3 => rw [if_neg hkind, hfield]

/-! ## Labels in format 3 -/

section
variable {inst : Instruction} {target : UInt32} {text : Text}
  (htarget : inst.target = { kind := .symbol, value := Int64.ofInt target.toNat, text })
include htarget

theorem effectiveValue_relative : inst.effectiveValue = Int64.ofInt target.toNat := by
  simp [effectiveValue, htarget]

theorem fits_statement :
    Word.fitsSigned (inst.effectiveValue - Int64.ofInt inst.source.toNat) 12 = true ↔
      -2048 ≤ (target.toNat : Int) - inst.source.toNat ∧
        (target.toNat : Int) - inst.source.toNat ≤ 2047 := by
  rw [effectiveValue_relative htarget, Word.fitsSigned_iff (by decide),
    toInt_sub_addresses]
  omega

theorem fits_base :
    Word.fitsUnsigned (inst.effectiveValue - Int64.ofInt inst.base.toNat) 12 = true ↔
      0 ≤ (target.toNat : Int) - inst.base.toNat ∧
        (target.toNat : Int) - inst.base.toNat ≤ 4095 := by
  rw [effectiveValue_relative htarget, Word.fitsUnsigned_iff (by decide),
    toInt_sub_addresses]
  omega

variable (hformat : inst.format = .three)
include hformat

theorem displacement_relative : inst.displacement = inst.relativeDisplacement := by
  simp [displacement, isRelative, hformat, htarget]

theorem encode_field {value : UInt32} {origin : Origin}
    (h : inst.relativeDisplacement = .ok ⟨value, origin⟩) :
    ∃ object, inst.encode = .ok object ∧ decode? .three object =
      some ⟨inst.opcode.toNat / 4, withOrigin { n := true, i := true } origin,
        value.toNat % 2 ^ 12⟩ := by
  have hflags : inst.addressingFlags = { n := true, i := true } := by
    simp [addressingFlags, hformat, htarget]
  rw [encode_of_field (by simp [hformat]) (by simp [htarget])
    ((displacement_relative htarget hformat).trans h), hformat, hflags]
  exact ⟨_, rfl, decode?_three _ _ _⟩

/-- **A label near the statement** is counted from it. -/
theorem encode_near (hnear : -2048 ≤ (target.toNat : Int) - inst.source.toNat ∧
    (target.toNat : Int) - inst.source.toNat ≤ 2047) :
    ∃ object d, inst.encode = .ok object ∧
      decode? .three object =
        some ⟨inst.opcode.toNat / 4, { n := true, i := true, p := true }, d⟩ ∧
      inst.source.toNat + signed 12 d = target.toNat := by
  have hfits := (fits_statement htarget).2 hnear
  obtain ⟨object, hencode, hdecode⟩ := encode_field htarget hformat (if_pos hfits)
  refine ⟨object, _, hencode, hdecode, ?_⟩
  have hsigned := (Word.fitsSigned_iff_signed (by decide)).1 hfits
  rw [Nat.mod_eq_of_lt (Word.mask_lt _ (by decide)), hsigned, effectiveValue_relative htarget,
    toInt_sub_addresses]
  omega

/-- **A label far from the statement**, but near the base register, is counted from that. -/
theorem encode_based (hfar : ¬ (-2048 ≤ (target.toNat : Int) - inst.source.toNat ∧
      (target.toNat : Int) - inst.source.toNat ≤ 2047))
    (hbase : 0 ≤ (target.toNat : Int) - inst.base.toNat ∧
      (target.toNat : Int) - inst.base.toNat ≤ 4095) :
    ∃ object d, inst.encode = .ok object ∧
      decode? .three object =
        some ⟨inst.opcode.toNat / 4, { n := true, i := true, b := true }, d⟩ ∧
      (inst.base.toNat + d : Int) = target.toNat := by
  have hfits := (fits_base htarget).2 hbase
  have hfield : inst.relativeDisplacement =
      .ok ⟨Word.mask (inst.effectiveValue - Int64.ofInt inst.base.toNat) 12, .base⟩ := by
    rw [relativeDisplacement, if_neg (mt (fits_statement htarget).1 hfar), if_pos hfits]
  obtain ⟨object, hencode, hdecode⟩ := encode_field htarget hformat hfield
  refine ⟨object, _, hencode, hdecode, ?_⟩
  rw [Nat.mod_eq_of_lt (Word.mask_lt _ (by decide)),
    (Word.fitsUnsigned_iff_mask (by decide)).1 hfits, effectiveValue_relative htarget,
    toInt_sub_addresses]
  omega

/-- **A label out of reach** is refused with its distance from the base register. -/
theorem encode_outOfReach (hfar : ¬ (-2048 ≤ (target.toNat : Int) - inst.source.toNat ∧
      (target.toNat : Int) - inst.source.toNat ≤ 2047))
    (hbase : ¬ (0 ≤ (target.toNat : Int) - inst.base.toNat ∧
      (target.toNat : Int) - inst.base.toNat ≤ 4095)) :
    ∃ distance : Int64, inst.encode = .error (.fault (.outOfReach distance)) ∧
      distance.toInt = (target.toNat : Int) - inst.base.toNat := by
  have hfield : inst.displacement =
      .error (.outOfReach (inst.effectiveValue - Int64.ofInt inst.base.toNat)) := by
    rw [displacement_relative htarget hformat, relativeDisplacement,
      if_neg (mt (fits_statement htarget).1 hfar),
      if_neg (mt (fits_base htarget).1 hbase)]
  refine ⟨inst.effectiveValue - Int64.ofInt inst.base.toNat, ?_, ?_⟩
  · unfold encode
    rw [hformat]
    dsimp only
    rw [if_neg (by simp [htarget]), hfield]
  · rw [effectiveValue_relative htarget, toInt_sub_addresses]

end

/-! ## Other operands that address memory -/

theorem decode?_layOut {format : Format} (opcode : UInt8) (flags : Flags) (value : UInt32)
    (hformat : format = .sic ∨ format = .three ∨ format = .four) :
    ∃ object, layOut format opcode flags value 0 = .ok object ∧ decode? format object =
      some ⟨if format = .sic then opcode.toNat else opcode.toNat / 4,
        if format = .sic then { x := flags.x } else flags,
        value.toNat % 2 ^ format.addressBits⟩ := by
  rcases hformat with rfl | rfl | rfl
  · exact ⟨_, rfl, decode?_sic _ _ _⟩
  · exact ⟨_, rfl, decode?_three _ _ _⟩
  · exact ⟨_, rfl, decode?_four _ _ _⟩

/-- The addressing bits that an operand asks for. -/
def flagsOf (format : Format) (addressing : Addressing) (indexed : Bool) : Flags :=
  if format = .sic then { x := indexed }
  else
    { n := addressing ≠ .immediate
      i := addressing ≠ .indirect
      x := indexed
      e := format = .four }

/-- **A value in the address field.** -/
theorem encode_absolute (inst : Instruction)
    (hformat : inst.format = .sic ∨ inst.format = .three ∨ inst.format = .four)
    (hkind : inst.target.kind = .symbol ∨ inst.target.kind = .literal)
    (hrelative : inst.isRelative = false) (hindex : inst.index = 0) :
    ∃ object decoded, inst.encode = .ok object ∧ decode? inst.format object = some decoded ∧
      decoded.opcode = (if inst.format = .sic then inst.opcode.toNat else inst.opcode.toNat / 4) ∧
      decoded.flags = flagsOf inst.format inst.target.addressing inst.target.indexed ∧
      (decoded.field : Int) = inst.target.value.toInt % 2 ^ inst.format.addressBits := by
  have hvalue : inst.effectiveValue = inst.target.value := by
    rw [effectiveValue, hindex]
    split
    · exact Int64.add_zero _
    · rfl
  have hfield : inst.displacement =
      .ok ⟨Word.mask inst.target.value inst.format.addressBits, .zero⟩ := by
    rw [← hvalue]
    rcases hformat with hf | hf | hf <;> rcases hkind with hk | hk <;>
      simp [displacement, hf, hk, hrelative]
  have hbits : inst.format.addressBits ≤ 32 := by
    rcases hformat with hf | hf | hf <;> rw [hf] <;> decide
  obtain ⟨object, hlayout, hdecode⟩ := decode?_layOut inst.opcode inst.addressingFlags
    (Word.mask inst.target.value inst.format.addressBits) hformat
  refine ⟨object, _, ?_, hdecode, rfl, ?_, ?_⟩
  · rw [encode_of_field (by rcases hformat with hf | hf | hf <;> simp [hf])
      (by rcases hkind with hk | hk <;> simp [hk]) hfield]
    exact hlayout
  · rcases hformat with hf | hf | hf <;> rcases hkind with hk | hk <;>
      simp [addressingFlags, flagsOf, hf, hk]
  · have hmask := Word.toNat_mask inst.target.value inst.format.addressBits hbits
    push_cast
    rw [hmask, Int.emod_emod]

/-- No operand: the address field is zero, and nothing is indexed. -/
theorem encode_none (inst : Instruction)
    (hformat : inst.format = .sic ∨ inst.format = .three ∨ inst.format = .four)
    (htarget : inst.target.kind = .none ∧ inst.target.indexed = false) :
    ∃ object, inst.encode = .ok object ∧ decode? inst.format object =
      some ⟨if inst.format = .sic then inst.opcode.toNat else inst.opcode.toNat / 4,
        if inst.format = .sic then {} else { n := true, i := true }, 0⟩ := by
  have hfield : inst.displacement = .ok ⟨0, .zero⟩ := by
    rcases hformat with hf | hf | hf <;> simp [displacement, hf, htarget.1]
  obtain ⟨object, hlayout, hdecode⟩ := decode?_layOut inst.opcode inst.addressingFlags 0 hformat
  refine ⟨object, ?_, ?_⟩
  · rw [encode_of_field (by rcases hformat with hf | hf | hf <;> simp [hf]) (by simp [htarget.1])
      hfield]
    exact hlayout
  · rw [hdecode]
    rcases hformat with hf | hf | hf <;> simp [addressingFlags, hf, htarget]

theorem encode_unknown {inst : Instruction} (hformat : inst.format = .unknown) (object : Text) :
    inst.encode ≠ .ok object := by
  rw [encode, hformat]
  dsimp only
  split
  · nofun
  · split <;> nofun

/-! ## The number of bytes -/

theorem length_layOut {format : Format} {opcode : UInt8} {flags : Flags} {value second : UInt32}
    {object : Text} (h : layOut format opcode flags value second = .ok object) :
    object.length = format.width.toNat := by
  cases format <;> cases h <;> rfl

theorem length_encode {inst : Instruction} {object : Text} (hformat : inst.format ≠ .byte)
    (h : inst.encode = .ok object) : object.length = inst.format.width.toNat := by
  unfold encode at h
  split at h
  case h_1 hbyte => exact absurd hbyte hformat
  case h_2 htwo =>
    rw [htwo]
    split at h
    · exact length_layOut h
    · exact length_layOut h
    · cases h
  case h_3 =>
    split at h
    · cases h
    · split at h
      · cases h
      · exact length_layOut h

end Instruction

/-! ## Statements -/

namespace ObjectCode

open Operand

/-- The fields of an instruction that addresses memory, as its operand asks for them. -/
inductive IsMemoryCode (symbols : SymbolTable) (format : Format) (opcode : UInt8) (text : Text) :
    Decoded → Prop
  | none (empty : text = []) : IsMemoryCode symbols format opcode text
      { opcode := if format = .sic then opcode.toNat else opcode.toNat / 4
        flags := if format = .sic then {} else { n := true, i := true }
        field := 0 }
  | some {addressing : Addressing} {name : Text} {indexed : Bool} {value : Int} {field : Nat}
      (parts : Marked text addressing name indexed) (nonempty : text ≠ [])
      (base : format = .sic → addressing = .simple) (meaning : valueOf? symbols name = some value)
      (low : (field : Int) = value % 2 ^ format.addressBits) :
      IsMemoryCode symbols format opcode text
      { opcode := if format = .sic then opcode.toNat else opcode.toNat / 4
        flags := Instruction.flagsOf format addressing indexed
        field }

/-- The object bytes of a statement, as its format, opcode and operand ask for them. -/
def IsCode (symbols : SymbolTable) (format : Format) (opcode : UInt8) (text object : Text) :
    Prop :=
  match format with
  | .sic | .three | .four =>
    ∃ decoded, decode? format object = some decoded ∧
      IsMemoryCode symbols format opcode text decoded
  | .one => text = [] ∧ object = [opcode]
  | .two =>
    ∃ r s b, Registers text r s ∧ ((0 ≤ r ∧ r < 16) ∧ 0 ≤ s ∧ s < 16) ∧ object = [opcode, b] ∧
      (b.toNat : Int) = r * 16 + s
  | .byte => IsByteData text object
  | .word =>
    object.length = 3 ∧
      ∃ value, wordValue? symbols text = some value ∧ (bigEndian object : Int) = value % 2 ^ 24
  | .unknown => False

section
variable {symbols : SymbolTable} {base : UInt32} {record : Record} {format : Format}
  {opcode : UInt8} {object : Text}

theorem resolve_memory {text : Text} (hformat : format = .sic ∨ format = .three ∨ format = .four) :
    resolve text format symbols = resolveMemory text format symbols := by
  rcases hformat with rfl | rfl | rfl <;> rfl

theorem objectOf_eq_ok (h : objectOf symbols base record format opcode = .ok object) :
    (resolve record.statement.operand format symbols).failure = none ∧
      (instruction record (resolve record.statement.operand format symbols).operand format opcode
        base).encode = .ok object := by
  unfold objectOf at h
  dsimp only at h
  split at h
  case h_1 => cases h
  case h_2 hok => exact ⟨hok, h⟩

/-- A label in format 3 is encoded with its address. -/
theorem objectOf_plain (base : UInt32) (record : Record) (opcode : UInt8) {target : UInt32}
    (hne : record.statement.operand ≠ [])
    (h : PlainReference symbols record.statement.operand target) :
    ∃ inst : Instruction, objectOf symbols base record .three opcode = inst.encode ∧
      inst.target =
        { kind := .symbol, value := Int64.ofInt target.toNat, text := record.statement.operand } ∧
      inst.format = .three ∧ inst.opcode = opcode ∧ inst.source = record.address ∧
      inst.base = base := by
  have hobject : objectOf symbols base record .three opcode =
      (instruction record (toSymbol { text := record.statement.operand } target).operand .three
        opcode base).encode := by
    unfold objectOf
    rw [resolve_memory (.inr (.inl rfl)), resolveMemory_plain hne h]
    rfl
  exact ⟨_, hobject, rfl, rfl, rfl, rfl, rfl⟩

theorem isCode_memory (hformat : format = .sic ∨ format = .three ∨ format = .four)
    (h : objectOf symbols base record format opcode = .ok object)
    (hplain : format = .three →
      ∀ address, ¬ PlainReference symbols record.statement.operand address) :
    ∃ decoded, decode? format object = some decoded ∧
      IsMemoryCode symbols format opcode record.statement.operand decoded := by
  obtain ⟨hok, hencode⟩ := objectOf_eq_ok h
  rw [resolve_memory hformat] at hok hencode
  by_cases ht : record.statement.operand = []
  · have htarget : (resolveMemory record.statement.operand format symbols).operand =
        { text := record.statement.operand } := by rw [resolveMemory, if_pos ht]
    rw [htarget] at hencode
    obtain ⟨made, hmade, hdecode⟩ := Instruction.encode_none
      (instruction record { text := record.statement.operand } format opcode base) hformat
      ⟨rfl, rfl⟩
    cases hmade.symm.trans hencode
    exact ⟨_, hdecode, .none ht⟩
  · obtain ⟨addressing, name, indexed, value, hparts, hsic, hvalue, htarget⟩ :=
      resolveMemory_ok ht hok
    rw [htarget] at hencode
    -- a relative address field would make the operand a plain reference
    have hrelative : (instruction record
        { kind := if (symbols.get? name).isSome then .symbol else .literal
          value, addressing, indexed, text := record.statement.operand }
        format opcode base).isRelative = false := by
      rw [← Bool.not_eq_true]
      intro hrel
      simp only [Instruction.isRelative, instruction, Bool.and_eq_true, Bool.not_eq_true'] at hrel
      obtain ⟨⟨⟨hthree, hkind⟩, hsimple⟩, rfl⟩ := hrel
      cases of_decide_eq_true hsimple
      cases hs : symbols.get? name with
      | none => simp [hs] at hkind
      | some address =>
        exact hplain (of_decide_eq_true hthree) address (.of_marked hparts hs)
    obtain ⟨made, decoded, hmade, hdecode, hopcode, hflags, hfield⟩ :=
      Instruction.encode_absolute (instruction record _ format opcode base) hformat
        (by dsimp only [instruction]; split <;> simp) hrelative rfl
    cases hmade.symm.trans hencode
    obtain ⟨_, _, field⟩ := decoded
    cases hopcode
    cases hflags
    exact ⟨_, hdecode, .some hparts ht hsic hvalue hfield⟩

theorem isCode_one (h : objectOf symbols base record .one opcode = .ok object) :
    record.statement.operand = [] ∧ object = [opcode] := by
  obtain ⟨hok, hencode⟩ := objectOf_eq_ok h
  by_cases ht : record.statement.operand = []
  · refine ⟨ht, ?_⟩
    rw [resolve, if_pos ht] at hencode
    cases hencode
    rfl
  · simp [resolve, ht, reject] at hok

theorem toNat_byteAt_lowWord {value : Int64} (hlow : 0 ≤ value.toInt) (hhigh : value.toInt < 16) :
    ((Instruction.byteAt (Instruction.lowWord value) 0).toNat : Int) = value.toInt := by
  have hword := toNat_lowWord_of_nonneg hlow (by omega)
  rw [Instruction.toNat_byteAt _ 0 (by decide)]
  simp only [UInt32.reduceToNat]
  omega

theorem isCode_two (h : objectOf symbols base record .two opcode = .ok object) :
    ∃ r s b, Registers record.statement.operand r s ∧ ((0 ≤ r ∧ r < 16) ∧ 0 ≤ s ∧ s < 16) ∧
      object = [opcode, b] ∧ (b.toNat : Int) = r * 16 + s := by
  obtain ⟨hok, hencode⟩ := objectOf_eq_ok h
  obtain ⟨value, second, hregisters, htarget⟩ := resolveRegisters_ok hok
  obtain ⟨⟨hr, hr16⟩, hs, hs16⟩ := hregisters.bounds
  have hbyte := Instruction.toNat_registerByte
    (Instruction.byteAt (Instruction.lowWord value) 0)
    (Instruction.byteAt (Instruction.lowWord second) 0)
  have hvalue := toNat_byteAt_lowWord hr hr16
  have hsecond := toNat_byteAt_lowWord hs hs16
  refine ⟨_, _, Instruction.registerByte (Instruction.byteAt (Instruction.lowWord value) 0)
    (Instruction.byteAt (Instruction.lowWord second) 0), hregisters, hregisters.bounds, ?_,
    by omega⟩
  rw [show resolve record.statement.operand .two symbols =
    resolveRegisters { text := record.statement.operand } from rfl] at hencode
  rcases htarget with ⟨htarget, rfl⟩ | htarget <;> rw [htarget] at hencode <;> cases hencode <;> rfl

theorem isCode_word (h : objectOf symbols base record .word opcode = .ok object) :
    object.length = 3 ∧ ∃ value, wordValue? symbols record.statement.operand = some value ∧
      (bigEndian object : Int) = value % 2 ^ 24 := by
  obtain ⟨hok, hencode⟩ := objectOf_eq_ok h
  obtain ⟨value, hvalue, htarget, hkind⟩ := resolve_word_ok hok
  have hfield : (instruction record (resolve record.statement.operand .word symbols).operand .word
      opcode base).displacement = .ok ⟨Word.mask value 24, .zero⟩ := by rw [← htarget]; rfl
  rw [Instruction.encode_of_field (by simp [instruction]) hkind hfield] at hencode
  cases hencode
  refine ⟨rfl, _, hvalue, ?_⟩
  have hmask := Word.toNat_mask value 24 (by decide)
  rw [Instruction.bigEndian_word]
  dsimp only
  omega

theorem byteConstant?_of_objectOf (h : objectOf symbols base record .byte opcode = .ok object) :
    byteConstant? record.statement.operand = some object := by
  obtain ⟨-, hencode⟩ := objectOf_eq_ok h
  simp only [Instruction.encode, instruction] at hencode
  split at hencode
  case h_1 data hdata =>
    cases hencode
    exact hdata
  case h_2 => cases hencode

theorem length_objectOf (hformat : format ≠ .byte)
    (h : objectOf symbols base record format opcode = .ok object) :
    object.length = format.width.toNat :=
  Instruction.length_encode hformat (objectOf_eq_ok h).2

/-- **Object bytes are what the statement asks for**, unless it is counted from the statement or
the base register. -/
theorem objectOf_isCode (h : objectOf symbols base record format opcode = .ok object)
    (hplain : format = .three →
      ∀ address, ¬ PlainReference symbols record.statement.operand address) :
    IsCode symbols format opcode record.statement.operand object := by
  cases format with
  | sic => exact isCode_memory (.inl rfl) h hplain
  | three => exact isCode_memory (.inr (.inl rfl)) h hplain
  | four => exact isCode_memory (.inr (.inr rfl)) h hplain
  | one => exact isCode_one h
  | two => exact isCode_two h
  | byte => exact byteConstant?_eq_some (byteConstant?_of_objectOf h)
  | word => exact isCode_word h
  | unknown => exact Instruction.encode_unknown rfl object (objectOf_eq_ok h).2

end

end ObjectCode

end SicXe
