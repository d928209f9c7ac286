import SicXe.Proofs.FaultReports
import SicXe.Proofs.Outcomes
import SicXe.Proofs.Recovery

/-!
# Instructions as the machine finds them

The extended machine reads instructions one after the other, and tells from the bytes of each where
the next one begins.

* `instructionLength?`: the number of bytes of the next instruction; `cutInstructions?`: a number of
  instructions in a row.
* `Instruction.encode_extended`: the bit e of formats 3 and 4.
* `ObjectCode.delimits_plain`, `ObjectCode.length_extended`: what the machine takes object code for.
* `Assembly.instructions_delimited`: the machine finds every instruction of a program, except those
  of format 4 without an operand, of which it takes one byte too few.
-/

namespace SicXe

/-! ## Reading -/

/-- The instruction of the extended machine with the opcode in the upper six bits of a byte. -/
def Opcode.named? (first : UInt8) : Option Opcode :=
  Mode.xe.opcodes.find? fun opcode => opcode.code.toNat / 4 = first.toNat / 4

/-- The number of bytes of the instruction at the front. Where the directory has format 3, the bit e
of the second byte tells format 4 from it. -/
def instructionLength? : Text → Option Nat
  | [] => none
  | first :: rest =>
    match (Opcode.named? first).map Opcode.format with
    | some .one => some 1
    | some .two => some 2
    | some .three => rest.head?.map fun second => if bitAt second.toNat 4 then 4 else 3
    | _ => none

/-- The given number of instructions at the front, and the bytes behind them. -/
def cutInstructions? : Nat → Text → Option (List Text × Text)
  | 0, bytes => some ([], bytes)
  | count + 1, bytes =>
    (instructionLength? bytes).bind fun length =>
      (cutInstructions? count (bytes.drop length)).map fun (objects, rest) =>
        (bytes.take length :: objects, rest)

/-- The machine finds the end of an instruction, whatever comes behind it. -/
def Delimits (object : Text) : Prop :=
  ∀ rest, instructionLength? (object ++ rest) = some object.length

/-- **Instructions in a row** are found if each of them is. -/
theorem cutInstructions?_flatten (rest : Text) : ∀ objects : List Text,
    (∀ object ∈ objects, Delimits object) →
    cutInstructions? objects.length (objects.flatten ++ rest) = some (objects, rest)
  | [], _ => rfl
  | object :: objects, h => by
    rw [List.forall_mem_cons] at h
    have hlength := h.1 (objects.flatten ++ rest)
    have hbehind := cutInstructions?_flatten rest objects h.2
    rw [List.length_cons, List.flatten_cons, List.append_assoc, cutInstructions?, hlength,
      Option.bind_some, List.drop_left, List.take_left, hbehind]
    rfl

/-- No two instructions of the directory share the upper six bits of their opcodes. -/
theorem Opcode.named?_of_mem {opcode : Opcode} (h : opcode ∈ Mode.xe.opcodes) {first : UInt8}
    (hfirst : first.toNat / 4 = opcode.code.toNat / 4) : named? first = some opcode := by
  have htable : ∀ opcode ∈ Mode.xe.opcodes, Mode.xe.opcodes.find?
      (fun other => other.code.toNat / 4 = opcode.code.toNat / 4) = some opcode := by
    decide +kernel
  rw [named?, hfirst]
  exact htable opcode h

/-! ## The bit e -/

/-- Opcode and bit e do not depend on what is behind the first two bytes. -/
theorem decodeExtended_leading {bits word first second low : Nat} (hsecond : second < 256)
    (hlow : low < 2 ^ bits) (hword : word = (first * 256 + second) * 2 ^ bits + low) :
    (decodeExtended (bits + 4) word).opcode = first / 4 ∧
      (decodeExtended (bits + 4) word).flags.e = bitAt second 4 := by
  have hdiv : word / 2 ^ bits = first * 256 + second := by
    rw [hword, Nat.mul_comm, Nat.mul_add_div (Nat.two_pow_pos bits), Nat.div_eq_of_lt hlow,
      Nat.add_zero]
  have hplace (k : Nat) : word / 2 ^ (bits + k) = (first * 256 + second) / 2 ^ k := by
    rw [Nat.pow_add, ← Nat.div_div_eq_div_mul, hdiv]
  constructor
  · change word / 2 ^ (bits + 10) = first / 4
    rw [hplace]
    omega
  · change decide (word / 2 ^ (bits + 4) % 2 = 1) = decide (second / 2 ^ 4 % 2 = 1)
    rw [hplace, show (first * 256 + second) / 2 ^ 4 % 2 = second / 2 ^ 4 % 2 by omega]

theorem decode?_leading {format : Format} {object : Text} {decoded : Decoded}
    (hformat : format = .three ∨ format = .four) (h : decode? format object = some decoded) :
    ∃ first second tail, object = first :: second :: tail ∧ decoded.opcode = first.toNat / 4 ∧
      decoded.flags.e = bitAt second.toNat 4 := by
  match object with
  | [] | [_] => rcases hformat with rfl | rfl <;> cases h
  | first :: second :: tail =>
    refine ⟨first, second, tail, rfl, ?_⟩
    unfold decode? at h
    rcases hformat with rfl | rfl
    · split at h
      case h_2 hlen =>
        obtain ⟨third, rfl⟩ := List.length_eq_one_iff.1 (Nat.succ.inj (Nat.succ.inj hlen))
        cases h
        refine @decodeExtended_leading 8 _ _ _ third.toNat second.toNat_lt third.toNat_lt ?_
        simp only [bigEndian, List.foldl_cons, List.foldl_nil]
        omega
      all_goals contradiction
    · split at h
      case h_3 hlen =>
        obtain ⟨third, fourth, rfl⟩ := List.length_eq_two.1 (Nat.succ.inj (Nat.succ.inj hlen))
        cases h
        have hthird := third.toNat_lt
        have hfourth := fourth.toNat_lt
        refine @decodeExtended_leading 16 _ _ _ (third.toNat * 256 + fourth.toNat) second.toNat_lt
          (by omega) ?_
        simp only [bigEndian, List.foldl_cons, List.foldl_nil]
        omega
      all_goals contradiction

namespace Instruction

/-- **The bit e** is set in format 4 with an operand. -/
theorem encode_extended {inst : Instruction} {object : Text}
    (hformat : inst.format = .three ∨ inst.format = .four) (h : inst.encode = .ok object) :
    ∃ decoded, decode? inst.format object = some decoded ∧
      decoded.opcode = inst.opcode.toNat / 4 ∧
      decoded.flags.e = decide (inst.format = .four ∧ inst.target.kind ≠ .none) := by
  have hsic : inst.format ≠ .sic := by rcases hformat with hf | hf <;> simp [hf]
  unfold encode at h
  split at h
  case h_1 hbyte => simp [hbyte] at hformat
  case h_2 htwo => simp [htwo] at hformat
  case h_3 =>
    split at h
    case isTrue => cases h
    case isFalse =>
    split at h
    case h_1 => cases h
    case h_2 field _ =>
    obtain ⟨made, hmade, hdecode⟩ := decode?_layOut inst.opcode
      (withOrigin inst.addressingFlags field.origin) field.value (.inr hformat)
    cases hmade.symm.trans h
    have hkept : (withOrigin inst.addressingFlags field.origin).e = inst.addressingFlags.e := by
      cases field.origin <;> rfl
    refine ⟨_, hdecode, if_neg hsic, ?_⟩
    dsimp only
    rw [if_neg hsic, hkept]
    by_cases hkind : inst.target.kind = .none <;> rcases hformat with hf | hf <;>
      simp [addressingFlags, hf, hkind]

end Instruction

theorem Operand.resolveMemory_kind_none {text : Text} {format : Format} {symbols : SymbolTable}
    (h : (resolveMemory text format symbols).failure = none) :
    (resolveMemory text format symbols).operand.kind = .none ↔ text = [] := by
  by_cases ht : text = []
  · rw [resolveMemory, if_pos ht]
    exact ⟨fun _ => ht, fun _ => rfl⟩
  · obtain ⟨_, name, _, _, -, -, -, hoperand⟩ := resolveMemory_ok ht h
    rw [hoperand]
    cases symbols.get? name <;> simp [ht]

/-! ## Object code -/

namespace ObjectCode

variable {symbols : SymbolTable} {base : UInt32} {record : Record} {object : Text}

/-- The first two bytes of formats 3 and 4. -/
theorem objectOf_leading {format : Format} {opcode : UInt8}
    (hformat : format = .three ∨ format = .four)
    (h : objectOf symbols base record format opcode = .ok object) :
    ∃ first second tail, object = first :: second :: tail ∧ first.toNat / 4 = opcode.toNat / 4 ∧
      bitAt second.toNat 4 = decide (format = .four ∧ record.statement.operand ≠ []) := by
  obtain ⟨hok, hencode⟩ := objectOf_eq_ok h
  rw [resolve_memory (.inr hformat)] at hok hencode
  obtain ⟨decoded, hdecode, hopcode, he⟩ := Instruction.encode_extended hformat hencode
  obtain ⟨first, second, tail, rfl, hfirst, hsecond⟩ := decode?_leading hformat hdecode
  refine ⟨first, second, tail, rfl, hfirst.symm.trans hopcode, hsecond.symm.trans (he.trans ?_)⟩
  have hkind := not_congr (Operand.resolveMemory_kind_none hok)
  exact decide_eq_decide.2 (and_congr_right fun _ => hkind)

/-- What the machine takes an instruction of format 3 or 4 for. -/
theorem length_extended {opcode : Opcode} (hmem : opcode ∈ Mode.xe.opcodes)
    (hthree : opcode.format = .three) {format : Format} (hformat : format = .three ∨ format = .four)
    (h : objectOf symbols base record format opcode.code = .ok object) (rest : Text) :
    instructionLength? (object ++ rest) =
      some (if format = .four ∧ record.statement.operand ≠ [] then 4 else 3) := by
  obtain ⟨first, second, tail, rfl, hfirst, hsecond⟩ := objectOf_leading hformat h
  rw [List.cons_append, List.cons_append, instructionLength?, Opcode.named?_of_mem hmem hfirst,
    Option.map_some, hthree]
  simp [hsecond]

/-- **Instructions written without a plus sign** are found. -/
theorem delimits_plain {opcode : Opcode} (hmem : opcode ∈ Mode.xe.opcodes)
    (h : objectOf symbols base record opcode.format opcode.code = .ok object) :
    Delimits object := by
  have hname := Opcode.named?_of_mem hmem rfl
  intro rest
  rcases Opcode.format_of_mem hmem with hf | hf | hf
  · rw [hf] at h
    obtain ⟨-, rfl⟩ := isCode_one h
    rw [List.singleton_append, instructionLength?, hname, Option.map_some, hf]
    rfl
  · rw [hf] at h
    obtain ⟨-, -, b, -, -, rfl, -⟩ := isCode_two h
    rw [List.cons_append, instructionLength?, hname, Option.map_some, hf]
    rfl
  · have hlength := length_objectOf (by rw [hf]; decide) h
    rw [length_extended hmem hf (.inl hf) h, hlength, hf]
    rfl

/-- **Instructions written with a plus sign** are found if they have an operand. -/
theorem delimits_extended {opcode : Opcode} (hmem : opcode ∈ Mode.xe.opcodes)
    (hthree : opcode.format = .three) (hoperand : record.statement.operand ≠ [])
    (h : objectOf symbols base record .four opcode.code = .ok object) : Delimits object := by
  intro rest
  have hlength := length_objectOf (by decide) h
  rw [length_extended hmem hthree (.inr rfl) h, if_pos ⟨rfl, hoperand⟩, hlength]
  rfl

end ObjectCode

namespace Assembly

variable {assembly : Assembly} {input : Input} {mode : Mode} {record : Record}

/-- **A program without a fault** has the object code of each statement that is to be encoded. -/
theorem objectOf_of_faults {lines : List Text} (hfaults : (ofLines mode lines).faults = [])
    {k : Nat} (h : (ofLines mode lines).program.records[k]? = some record) {format : Format}
    {opcode : UInt8} (he : record.content.encoding? = some (format, opcode)) :
    ∃ base, ObjectCode.objectOf (ofLines mode lines).symbols base record.bare format opcode =
      .ok record.object := by
  obtain ⟨hlaid, -, base, -, houtcome⟩ := record_outcome (errorFree_of_faults hfaults) h
  have hsettle := houtcome format opcode he
  have hformat := Mode.format_of_encoding? (Layout.encoding_record hlaid he).1
  rcases ObjectCode.objectOf_cases (ofLines mode lines).symbols base record.bare hformat opcode with
    ⟨object, hobject⟩ | ⟨cause, hcause⟩
  · refine ⟨base, ?_⟩
    rw [hobject, (settled_ok (hobject ▸ hsettle)).1]
  · -- a fault of the record would be one of the assembly
    rw [faults_eq_flatMap, List.flatMap_eq_nil_iff] at hfaults
    have hnone := hfaults record (List.mem_of_getElem? h)
    rw [hcause] at hsettle
    cases (congrArg Record.faults hsettle).symm.trans hnone

/-- **One instruction** of a program without a fault. -/
theorem object_delimited {lines : List Text} (hfaults : (ofLines .xe lines).faults = [])
    (hrecord : record ∈ (ofLines .xe lines).program.records) {opcode : Opcode}
    (hcontent : record.content = .instruction opcode) :
    record.object.length = record.width.toNat ∧
      if opcode.format = .four ∧ record.statement.operand = [] then
        decode? .four record.object =
            some ⟨opcode.code.toNat / 4, { n := true, i := true }, 0⟩ ∧
          ∀ rest, instructionLength? (record.object ++ rest) = some 3
      else
        Delimits record.object ∧ (opcode.format = .four →
          ∃ decoded, decode? .four record.object = some decoded ∧ decoded.flags.e = true) := by
  obtain ⟨k, hk⟩ := List.mem_iff_getElem?.1 hrecord
  have he : record.content.encoding? = some (opcode.format, opcode.code) := by
    rw [hcontent]
    rfl
  obtain ⟨hlaid, -⟩ := record_outcome (errorFree_of_faults hfaults) hk
  have hopcode := Layout.opcode_record hlaid hcontent
  obtain ⟨base, hobject⟩ := objectOf_of_faults hfaults hk he
  constructor
  · have hbyte := Mode.ne_byte_of_opcode? hopcode
    have hwidth : record.width = opcode.format.width :=
      (Layout.encoding_record hlaid he).2.trans (if_neg hbyte)
    rw [ObjectCode.length_objectOf hbyte hobject, hwidth]
  · rcases Option.or_eq_some_iff.1 hopcode with hplain | ⟨-, hextended⟩
    · have hmem := List.mem_of_find?_eq_some hplain
      have hfour : opcode.format ≠ .four := by
        rcases Opcode.format_of_mem hmem with hf | hf | hf <;> rw [hf] <;> decide
      rw [if_neg fun h => hfour h.1]
      exact ⟨ObjectCode.delimits_plain hmem hobject, fun h => absurd h hfour⟩
    · obtain ⟨-, plain, hmem, hthree, rfl⟩ := Mode.extendedOpcode?_eq_some hextended
      obtain ⟨decoded, hdecode, hcode⟩ :=
        ObjectCode.isCode_memory (.inr (.inr rfl)) hobject fun h => by cases h
      cases hcode with
      | none empty =>
        rw [if_pos ⟨rfl, empty⟩]
        refine ⟨hdecode, fun rest => ?_⟩
        rw [ObjectCode.length_extended hmem hthree (.inr rfl) hobject, if_neg fun h => h.2 empty]
      | some _ nonempty =>
        rw [if_neg fun h => nonempty h.2]
        exact ⟨ObjectCode.delimits_extended hmem hthree nonempty hobject, fun _ =>
          ⟨_, hdecode, rfl⟩⟩

/-- **Instructions delimit themselves.** In a program of the extended machine without a fault, the
object code of each instruction has as many bytes as its width says. If it is not an instruction of
format 4 without an operand, the machine reads this number from the bytes, whatever is behind them,
and format 4 has the bit e. Format 4 without an operand has the bits n and i alone, and the machine
takes it for three bytes. So instructions of the program in a row are cut apart again, if none of
them is of that kind. -/
theorem instructions_delimited (hassembly : ofInput .xe input = .ok assembly)
    (hfaults : assembly.faults = []) :
    (∀ record ∈ assembly.program.records, ∀ opcode, record.content = .instruction opcode →
      record.object.length = record.width.toNat ∧
      if opcode.format = .four ∧ record.statement.operand = [] then
        decode? .four record.object =
            some ⟨opcode.code.toNat / 4, { n := true, i := true }, 0⟩ ∧
          ∀ rest, instructionLength? (record.object ++ rest) = some 3
      else
        (∀ rest, instructionLength? (record.object ++ rest) = some record.width.toNat) ∧
          (opcode.format = .four →
            ∃ decoded, decode? .four record.object = some decoded ∧ decoded.flags.e = true)) ∧
    ∀ segment ⊆ assembly.program.records,
      (∀ record ∈ segment, ∃ opcode, record.content = .instruction opcode ∧
        ¬ (opcode.format = .four ∧ record.statement.operand = [])) →
      ∀ rest, cutInstructions? segment.length (segment.flatMap Record.object ++ rest) =
        some (segment.map Record.object, rest) := by
  obtain rfl := ofInput_eq_ok hassembly
  constructor
  · intro record hrecord opcode hcontent
    obtain ⟨hlength, hfound⟩ := object_delimited hfaults hrecord hcontent
    rw [← hlength]
    exact ⟨rfl, hfound⟩
  · intro segment hsegment hkinds rest
    have hdelimits : ∀ object ∈ segment.map Record.object, Delimits object := by
      intro object hobject
      obtain ⟨record, hrecord, rfl⟩ := List.mem_map.1 hobject
      obtain ⟨opcode, hcontent, hkind⟩ := hkinds record hrecord
      obtain ⟨-, hfound⟩ := object_delimited hfaults (hsegment hrecord) hcontent
      rw [if_neg hkind] at hfound
      exact hfound.1
    have hcut := cutInstructions?_flatten rest _ hdelimits
    rwa [List.length_map, ← List.flatMap_def] at hcut

/-- An instruction of one byte and one of four. -/
theorem instructions_delimited_two :
    ∃ assembly, ofInput .xe { text := "FLOAT\n+LDA #3\n" } = .ok assembly ∧
      assembly.program.records.map Record.object = [[0xC0], [0x01, 0x10, 0x00, 0x03]] ∧
      cutInstructions? 2 [0xC0, 0x01, 0x10, 0x00, 0x03, 0xFF] =
        some ([[0xC0], [0x01, 0x10, 0x00, 0x03]], [0xFF]) := by
  have hassembly : ofInput .xe { text := "FLOAT\n+LDA #3\n" } =
      .ok (ofLines .xe ["FLOAT", "+LDA #3"]) := rfl
  have hrecords : (ofLines .xe ["FLOAT", "+LDA #3"]).program.records =
      [{ line := 1, source := "FLOAT", content := .instruction ⟨"FLOAT", 0xC0, .one⟩,
         statement := { mnemonic := "FLOAT" }, address := 0, width := 1, object := [0xC0] },
       { line := 2, source := "+LDA #3", content := .instruction ⟨"LDA", 0, .four⟩,
         statement := { mnemonic := "+LDA", operand := "#3" }, address := 1, width := 4,
         object := [0x01, 0x10, 0x00, 0x03] }] := by decide +kernel
  have hcut := (instructions_delimited hassembly (by decide +kernel)).2 _ (List.Subset.refl _)
  rw [hrecords] at hcut
  refine ⟨_, hassembly, by rw [hrecords]; rfl, hcut ?_ [0xFF]⟩
  rw [List.forall_mem_cons, List.forall_mem_singleton]
  exact ⟨⟨_, rfl, by decide⟩, _, rfl, by decide⟩

/-- **Format 4 without an operand** is laid out with four bytes and read with three. -/
theorem bare_extended_not_delimited :
    ∃ assembly record, ofInput .xe { text := "+RSUB\n" } = .ok assembly ∧
      assembly.faults = [] ∧ record ∈ assembly.program.records ∧
      record.content = .instruction ⟨"RSUB", 0x4C, .four⟩ ∧ record.width = 4 ∧
      instructionLength? record.object = some 3 ∧
      decode? .four record.object = some ⟨0x4C / 4, { n := true, i := true, e := false }, 0⟩ := by
  have hassembly : ofInput .xe { text := "+RSUB\n" } = .ok (ofLines .xe ["+RSUB"]) := rfl
  have hrecord : (ofLines .xe ["+RSUB"]).program.records[0]? =
      some { line := 1, source := "+RSUB", content := .instruction ⟨"RSUB", 0x4C, .four⟩,
             statement := { mnemonic := "+RSUB" }, address := 0, width := 4,
             object := [0x4F, 0x00, 0x00, 0x00] } := by decide +kernel
  exact ⟨_, _, hassembly, by decide +kernel, List.mem_of_getElem? hrecord, rfl, rfl,
    by decide +kernel, by decide +kernel⟩

end Assembly

end SicXe
