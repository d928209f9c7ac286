import SicXe.Proofs.Encoding

/-!
# Address fields in exact integers

Distances are taken in 64 bits and wrap, but no wrapped distance lies in reach of an address field:

* `distance_cases`: a distance is exact, or it wrapped to a number far above every field.
* `HasRelativeField`, `NearStatement`, `NearBase`, `absoluteValue`: what the address field of an
  instruction has to express, in integers.
* `IsField`, `isField_displacement`: the address field is what these say.
* `IsWhole`, `isWhole_of_lt`: a value below the bound of its format is laid out with all its bits.
* `displacement_exact`: all of it together, for any instruction whatever.
-/

namespace SicXe

/-- The number of bits that a format has for the value of its operand. -/
def Format.fieldBits : Format → Nat
  | .sic => 15
  | .four => 20
  | .word => 24
  | _ => 12

namespace Instruction

/-! ## Distances -/

/-- **A distance in 64 bits** is exact, or it wrapped: then the exact one is far below zero, and the
wrapped one far above. -/
theorem distance_cases (value : Int64) (origin : UInt32) :
    (value - Int64.ofInt origin.toNat).toInt = value.toInt - origin.toNat ∨
      (2 ^ 62 < (value - Int64.ofInt origin.toNat).toInt ∧
        value.toInt - origin.toNat < -2 ^ 62) := by
  have hvalue := value.toInt_lt
  have hlow := value.le_toInt
  have horigin := origin.toNat_lt
  rw [Int64.toInt_sub, Operand.toInt_ofInt_address]
  by_cases hfits : -2 ^ 63 ≤ value.toInt - origin.toNat
  · left
    exact Int.bmod_eq_of_le (by omega) (by omega)
  · right
    rw [← Int.add_bmod_right, Int.bmod_eq_of_le (by omega) (by omega)]
    omega

/-! ## What the address field has to express -/

section
variable (inst : Instruction)

/-- Whether the address field is relative: format 3, with a simple operand that is present, not a
literal and not indexed. -/
def HasRelativeField : Prop :=
  inst.format = .three ∧ inst.target.kind ≠ .none ∧ inst.target.kind ≠ .literal ∧
    inst.target.addressing = .simple ∧ inst.target.indexed = false

/-- The target as counted from an address. -/
def distance (origin : UInt32) : Int := inst.target.value.toInt - origin.toNat

/-- Whether a signed field of 12 bits leads from the statement to the target. -/
def NearStatement : Prop :=
  -2048 ≤ inst.distance inst.source ∧ inst.distance inst.source ≤ 2047

/-- Whether an unsigned field of 12 bits leads from the base register to the target. -/
def NearBase : Prop := 0 ≤ inst.distance inst.base ∧ inst.distance inst.base ≤ 4095

/-- What an operand adds to its value: the index register, if it is indexed and simple. -/
def indexOffset : Nat :=
  if inst.target.indexed ∧ inst.target.addressing = .simple then inst.index.toNat else 0

/-- The value of an address field that counts from nothing. -/
def absoluteValue : Int :=
  match inst.format with
  | .one | .two | .byte => 0
  | .word => inst.target.value.toInt
  | _ =>
    if inst.target.kind = .none then 0 else inst.target.value.toInt + inst.indexOffset

/-- What becomes of an address field, told in integers. -/
inductive IsField : Except Cause Displacement → Prop where
  | statement {value : UInt32} (relative : inst.HasRelativeField) (near : inst.NearStatement)
      (below : value.toNat < 2 ^ 12) (leads : signed 12 value.toNat = inst.distance inst.source) :
      IsField (.ok ⟨value, .statement⟩)
  | base {value : UInt32} (relative : inst.HasRelativeField) (far : ¬ inst.NearStatement)
      (near : inst.NearBase) (leads : (value.toNat : Int) = inst.distance inst.base) :
      IsField (.ok ⟨value, .base⟩)
  | outOfReach (relative : inst.HasRelativeField) (far : ¬ inst.NearStatement)
      (out : ¬ inst.NearBase) (distance : Int64) : IsField (.error (.outOfReach distance))
  | absolute {value : UInt32} (other : ¬ inst.HasRelativeField)
      (low : (value.toNat : Int) = inst.absoluteValue % 2 ^ inst.format.fieldBits) :
      IsField (.ok ⟨value, .zero⟩)

end

section
variable {inst : Instruction}

theorem hasRelativeField_iff (h : inst.target.kind ≠ .none) :
    inst.HasRelativeField ↔ inst.isRelative = true := by
  simp [HasRelativeField, isRelative, h, and_assoc]

/-- A wrapped sum has the low bits of the exact one. -/
theorem effectiveValue_emod (inst : Instruction) {bits : Nat} (hbits : bits ≤ 32) :
    inst.effectiveValue.toInt % 2 ^ bits =
      (inst.target.value.toInt + inst.indexOffset) % 2 ^ bits := by
  unfold effectiveValue indexOffset
  split
  · rw [Int64.toInt_add, Operand.toInt_ofInt_address]
    have hdvd : (2 : Int) ^ bits ∣ (2 ^ 64 : Nat) := by
      exact_mod_cast Nat.pow_dvd_pow 2 (Nat.le_trans hbits (by decide : 32 ≤ 64))
    rw [← Int.emod_emod_of_dvd _ hdvd, Int.bmod_emod, Int.emod_emod_of_dvd _ hdvd]
  · rw [Int.natCast_zero, Int.add_zero]

theorem effectiveValue_of_relative (h : inst.HasRelativeField) :
    inst.effectiveValue = inst.target.value := by
  simp [effectiveValue, h.2.2.2.2]

theorem fits_source (h : inst.HasRelativeField) :
    Word.fitsSigned (inst.effectiveValue - Int64.ofInt inst.source.toNat) 12 = true ↔
      inst.NearStatement := by
  rw [Word.fitsSigned_iff (by decide), effectiveValue_of_relative h, NearStatement, distance]
  have hcases := distance_cases inst.target.value inst.source
  omega

theorem fits_baseRegister (h : inst.HasRelativeField) :
    Word.fitsUnsigned (inst.effectiveValue - Int64.ofInt inst.base.toNat) 12 = true ↔
      inst.NearBase := by
  rw [Word.fitsUnsigned_iff (by decide), effectiveValue_of_relative h, NearBase, distance]
  have hcases := distance_cases inst.target.value inst.base
  omega

/-- **The field of a relative operand**: from the statement, else from the base register, else out
of reach. -/
theorem isField_relative (h : inst.HasRelativeField) : inst.IsField inst.relativeDisplacement := by
  unfold relativeDisplacement
  dsimp only
  by_cases hnear : inst.NearStatement
  · have hfits := (fits_source h).2 hnear
    rw [if_pos hfits]
    refine .statement h hnear (Word.mask_lt _ (by decide)) ?_
    have hsigned := (Word.fitsSigned_iff_signed (by decide)).1 hfits
    rw [hsigned, effectiveValue_of_relative h]
    have hcases := distance_cases inst.target.value inst.source
    rw [NearStatement, distance] at hnear
    rw [distance]
    omega
  · rw [if_neg (mt (fits_source h).1 hnear)]
    by_cases hbase : inst.NearBase
    · have hfits := (fits_baseRegister h).2 hbase
      rw [if_pos hfits]
      refine .base h hnear hbase ?_
      rw [(Word.fitsUnsigned_iff_mask (by decide)).1 hfits, effectiveValue_of_relative h]
      have hcases := distance_cases inst.target.value inst.base
      rw [NearBase, distance] at hbase
      rw [distance]
      omega
    · rw [if_neg (mt (fits_baseRegister h).1 hbase)]
      exact .outOfReach h hnear hbase _

/-- The field of an operand that addresses memory, or has no format. -/
theorem isField_memory (hformat : inst.format = .sic ∨ inst.format = .three ∨
    inst.format = .four ∨ inst.format = .unknown) : inst.IsField inst.displacement := by
  have hbits : inst.format.fieldBits = inst.format.addressBits ∧ inst.format.addressBits ≤ 32 := by
    rcases hformat with hf | hf | hf | hf <;> rw [hf] <;> decide
  have hfield : inst.displacement =
      if inst.target.kind = .none then .ok ⟨0, .zero⟩
      else if inst.isRelative then inst.relativeDisplacement
      else .ok ⟨Word.mask inst.effectiveValue inst.format.addressBits, .zero⟩ := by
    rcases hformat with hf | hf | hf | hf <;> simp only [displacement, hf]
  have hvalue : inst.absoluteValue =
      if inst.target.kind = .none then 0 else inst.target.value.toInt + inst.indexOffset := by
    rcases hformat with hf | hf | hf | hf <;> simp only [absoluteValue, hf]
  rw [hfield]
  by_cases hnone : inst.target.kind = .none
  · rw [if_pos hnone]
    refine .absolute (fun h => h.2.1 hnone) ?_
    rw [hvalue, if_pos hnone]
    simp
  · rw [if_neg hnone]
    by_cases hrelative : inst.isRelative = true
    · rw [if_pos hrelative]
      exact isField_relative ((hasRelativeField_iff hnone).2 hrelative)
    · rw [if_neg hrelative]
      refine .absolute (mt (hasRelativeField_iff hnone).1 hrelative) ?_
      rw [hbits.1, Word.toNat_mask _ _ hbits.2, effectiveValue_emod inst hbits.2, hvalue,
        if_neg hnone]

/-- **The address field is what the instruction asks for**, in every format. -/
theorem isField_displacement (inst : Instruction) : inst.IsField inst.displacement := by
  have hzero (hformat : inst.format = .one ∨ inst.format = .two ∨ inst.format = .byte) :
      inst.IsField (.ok ⟨0, .zero⟩) := by
    refine .absolute (fun h => ?_) ?_
    · rcases hformat with hf | hf | hf <;> cases hf.symm.trans h.1
    · rcases hformat with hf | hf | hf <;> simp [absoluteValue, hf]
  cases hformat : inst.format with
  | one | two | byte =>
    simp only [displacement, hformat]
    exact hzero (by simp [hformat])
  | word =>
    simp only [displacement, hformat]
    refine .absolute (fun h => by cases hformat.symm.trans h.1) ?_
    rw [Word.toNat_mask _ 24 (by decide)]
    simp [absoluteValue, hformat, Format.fieldBits]
  | sic | three | four | unknown => exact isField_memory (by simp [hformat])

end

/-! ## Laying out the field -/

/-- Whether a value is laid out whole in a format: its bits can be read back from the object bytes.
Nothing is laid out of the value in a format without an address field. -/
def IsWhole (format : Format) (value : UInt32) : Prop :=
  ∀ (opcode : UInt8) (flags : Flags) (second : UInt32),
    match format with
    | .sic | .three | .four =>
      ∃ object decoded, pack format opcode flags value second = .ok object ∧
        decode? format object = some decoded ∧ decoded.field = value.toNat
    | .word =>
      ∃ object, pack format opcode flags value second = .ok object ∧ object.length = 3 ∧
        bigEndian object = value.toNat
    | .one | .two | .byte => value = 0
    | .unknown => pack format opcode flags value second = .error (.noLayout .unknown)

theorem isWhole_of_lt {format : Format} {value : UInt32} (hlt : value.toNat < 2 ^ format.fieldBits)
    (hzero : format = .one ∨ format = .two ∨ format = .byte → value = 0) :
    IsWhole format value := by
  intro opcode flags second
  have hmod : value.toNat % 2 ^ format.fieldBits = value.toNat := Nat.mod_eq_of_lt hlt
  cases format with
  | sic => exact ⟨_, _, rfl, decode?_sic opcode flags value, hmod⟩
  | three => exact ⟨_, _, rfl, decode?_three opcode flags value, hmod⟩
  | four => exact ⟨_, _, rfl, decode?_four opcode flags value, hmod⟩
  | word => exact ⟨_, rfl, rfl, (bigEndian_word value).trans hmod⟩
  | one | two | byte => exact hzero (by simp)
  | unknown => rfl

/-! ## Everything about the field -/

section
variable {inst : Instruction} {result : Except Cause Displacement} {value : UInt32}

theorem IsField.statement_iff (h : inst.IsField result) :
    (∃ value, result = .ok ⟨value, .statement⟩) ↔ inst.HasRelativeField ∧ inst.NearStatement := by
  cases h with
  | statement relative near => simp [relative, near]
  | base _ far | outOfReach _ far => simp [far]
  | absolute other => simp [other]

theorem IsField.base_iff (h : inst.IsField result) :
    (∃ value, result = .ok ⟨value, .base⟩) ↔
      inst.HasRelativeField ∧ ¬ inst.NearStatement ∧ inst.NearBase := by
  cases h with
  | statement _ near => simp [near]
  | base relative far near => simp [relative, far, near]
  | outOfReach _ _ out => simp [out]
  | absolute other => simp [other]

theorem IsField.error_iff (h : inst.IsField result) :
    (∃ cause, result = .error cause) ↔
      inst.HasRelativeField ∧ ¬ inst.NearStatement ∧ ¬ inst.NearBase := by
  cases h with
  | statement _ near => simp [near]
  | base _ _ near => simp [near]
  | outOfReach relative far out => simp [relative, far, out]
  | absolute other => simp [other]

theorem IsField.zero_iff (h : inst.IsField result) :
    (∃ value, result = .ok ⟨value, .zero⟩) ↔ ¬ inst.HasRelativeField := by
  cases h with
  | statement relative | base relative | outOfReach relative => simp [relative]
  | absolute other => simp [other]

/-- A field that counts from nothing has the low bits of its value, all that its format has. -/
theorem IsField.zero_eq (h : inst.IsField (.ok ⟨value, .zero⟩)) :
    (value.toNat : Int) = inst.absoluteValue % 2 ^ inst.format.fieldBits ∧
      value.toNat < 2 ^ inst.format.fieldBits := by
  cases h with
  | absolute _ low =>
    have hlt := Int.emod_lt_of_pos inst.absoluteValue (b := 2 ^ inst.format.fieldBits)
      (Int.pow_pos (by decide))
    rw [← low] at hlt
    exact ⟨low, by exact_mod_cast hlt⟩

theorem IsField.isWhole {field : Displacement} (h : inst.IsField (.ok field)) :
    IsWhole inst.format field.value := by
  cases h with
  | statement relative near below leads =>
    rw [relative.1]
    exact isWhole_of_lt below (by simp)
  | base relative far near leads =>
    rw [relative.1]
    refine isWhole_of_lt ?_ (by simp)
    have hle := near.2
    dsimp only [Format.fieldBits]
    omega
  | absolute other low =>
    refine isWhole_of_lt (IsField.zero_eq (.absolute other low)).2 fun hformat => ?_
    have hzero : inst.absoluteValue = 0 := by
      rcases hformat with hf | hf | hf <;> simp only [absoluteValue, hf]
    rw [hzero] at low
    exact UInt32.toNat_inj.1 (by simpa using low)

end

/-- The bits b and p tell the origin of the field. -/
theorem withOrigin_iff (inst : Instruction) (origin : Origin) :
    ((withOrigin inst.addressingFlags origin).p = true ↔ origin = .statement) ∧
      ((withOrigin inst.addressingFlags origin).b = true ↔ origin = .base) := by
  have hflags : inst.addressingFlags.p = false ∧ inst.addressingFlags.b = false := by
    unfold addressingFlags
    split
    · exact ⟨rfl, rfl⟩
    · split <;> exact ⟨rfl, rfl⟩
    · split <;> exact ⟨rfl, rfl⟩
    · exact ⟨rfl, rfl⟩
  cases origin <;> simp [withOrigin, hflags]

/-- **Address fields are exact.** For any instruction, the field is counted from the statement if
and only if it is relative and the statement is near in exact integers, and then its signed value is
the distance; from the base register if and only if it is relative, the statement is far and the
base register near, and then it is the distance; and there is none if and only if both are far. The
bits b and p are never both set. Any other field has the low bits of its exact value, as many as its
format has; and no bit of a field is lost in the layout. -/
theorem displacement_exact (inst : Instruction) :
    ((∃ value, inst.displacement = .ok ⟨value, .statement⟩) ↔
        inst.HasRelativeField ∧ inst.NearStatement) ∧
      (∀ value, inst.displacement = .ok ⟨value, .statement⟩ →
        value.toNat < 2 ^ 12 ∧ signed 12 value.toNat = inst.distance inst.source) ∧
      ((∃ value, inst.displacement = .ok ⟨value, .base⟩) ↔
        inst.HasRelativeField ∧ ¬ inst.NearStatement ∧ inst.NearBase) ∧
      (∀ value, inst.displacement = .ok ⟨value, .base⟩ →
        (value.toNat : Int) = inst.distance inst.base) ∧
      ((∃ cause, inst.displacement = .error cause) ↔
        inst.HasRelativeField ∧ ¬ inst.NearStatement ∧ ¬ inst.NearBase) ∧
      ((∃ value, inst.displacement = .ok ⟨value, .zero⟩) ↔ ¬ inst.HasRelativeField) ∧
      (∀ value, inst.displacement = .ok ⟨value, .zero⟩ →
        (value.toNat : Int) = inst.absoluteValue % 2 ^ inst.format.fieldBits ∧
          value.toNat < 2 ^ inst.format.fieldBits) ∧
      ∀ field, inst.displacement = .ok field → IsWhole inst.format field.value ∧
        let flags := withOrigin inst.addressingFlags field.origin
        (flags.p = true ↔ field.origin = .statement) ∧ (flags.b = true ↔ field.origin = .base) ∧
          ¬ (flags.p = true ∧ flags.b = true) := by
  have h := inst.isField_displacement
  refine ⟨h.statement_iff, fun value hvalue => ?_, h.base_iff, fun value hvalue => ?_, h.error_iff,
    h.zero_iff, fun value hvalue => ?_, fun field hfield => ?_⟩
  · rw [hvalue] at h
    cases h with
    | statement _ _ below leads => exact ⟨below, leads⟩
  · rw [hvalue] at h
    cases h with
    | base _ _ _ leads => exact leads
  · exact (hvalue ▸ h).zero_eq
  · obtain ⟨hp, hb⟩ := withOrigin_iff inst field.origin
    refine ⟨(hfield ▸ h).isWhole, hp, hb, fun hboth => ?_⟩
    cases (hp.1 hboth.1).symm.trans (hb.1 hboth.2)

/-- The lowest distance from the statement, and a distance that would wrap into the far end. -/
theorem displacement_exact_edge :
    let near : Instruction := { format := .three, target := { kind := .symbol }, source := 2048 }
    let far : Instruction :=
      { format := .three, source := 0xFFFFFFFF, base := 0xFFFFFFFF
        target := { kind := .symbol, value := Int64.minValue } }
    (∃ value, near.displacement = .ok ⟨value, .statement⟩ ∧ signed 12 value.toNat = -2048) ∧
      ∃ cause, far.displacement = .error cause := by
  intro near far
  have hnear : near.displacement = .ok ⟨0x800, .statement⟩ := by decide +kernel
  refine ⟨⟨0x800, hnear, ((displacement_exact near).2.1 _ hnear).2⟩, ?_⟩
  refine (displacement_exact far).2.2.2.2.1.2 ⟨⟨rfl, ?_, ?_, rfl, rfl⟩, ?_, ?_⟩
  · decide
  · decide
  · unfold NearStatement
    decide +kernel
  · unfold NearBase
    decide +kernel

end Instruction

end SicXe
