import SicXe.Proofs.AssemblyRun

/-!
# Object code means what the source says

* `relative_field`: a label in format 3 is counted from the statement or from the base register, and
  the field leads to the label; out of reach it is a fault that tells the distance.
* `object_recovers`: from any other object code the decoder reads back the statement.
-/

namespace SicXe

namespace Assembly

open Operand

variable {assembly : Assembly} {input : Input} {mode : Mode} {k : Nat} {record : Record}

/-- The table of labels of an assembly holds no empty label. -/
theorem get?_nil {lines : List Text} : (ofLines mode lines).symbols.get? [] = none := by
  rw [symbols_ofLines, (Layout.ofLines_laid _ _ _).symbols]
  rfl

theorem ne_nil_of_get? {lines : List Text} {name : Text} {address : UInt32}
    (h : (ofLines mode lines).symbols.get? name = some address) : name ≠ [] := by
  rintro rfl
  rw [get?_nil] at h
  cases h

theorem settled_ok {object : Text} (h : record = record.bare.settle (.ok object)) :
    record.object = object ∧ record.faults = [] :=
  ⟨congrArg Record.object h, congrArg Record.faults h⟩

/-- **Labels in format 3.** Of a program that was laid out without a fault, take an instruction of
format 3 whose operand is the label at `target`, and the base register as the last base directive in
front announced it. If the label is near the statement, the field is a signed distance from the
statement; or else, if it is near the base register, the unsigned distance from there; or else there
is no object code, and one fault with the distance from the base register. -/
theorem relative_field (hassembly : ofInput .xe input = .ok assembly)
    (hfree : assembly.program.errorFree = true)
    (hrecord : assembly.program.records[k]? = some record) {opcode : Opcode}
    (hcontent : record.content = .instruction opcode)
    (hformat : opcode.format = .three) {target : UInt32}
    (hplain : PlainReference assembly.symbols record.statement.operand target) :
    let base := ObjectCode.baseAfter assembly.symbols (assembly.program.records.take k)
    let fromStatement : Int := target.toNat - record.address.toNat
    let fromBase : Int := target.toNat - base
    if -2048 ≤ fromStatement ∧ fromStatement ≤ 2047 then
      ∃ d, decode? .three record.object =
          some ⟨opcode.code.toNat / 4, { n := true, i := true, p := true }, d⟩ ∧
        d < 2 ^ 12 ∧ record.address.toNat + signed 12 d = target.toNat ∧ record.faults = []
    else if 0 ≤ fromBase ∧ fromBase ≤ 4095 then
      ∃ d, decode? .three record.object =
          some ⟨opcode.code.toNat / 4, { n := true, i := true, b := true }, d⟩ ∧
        d < 2 ^ 12 ∧ base + d = target.toNat ∧ record.faults = []
    else
      record.object = [] ∧ ∃ distance : Int64, distance.toInt = fromBase ∧
        record.faults = [record.faultAt record.statement.operand (.outOfReach distance)] := by
  obtain rfl := ofInput_eq_ok hassembly
  have hne := ne_nil_of_get? hplain.defined
  obtain ⟨-, -, base, hbase, houtcome⟩ := record_outcome hfree hrecord
  have hsettle := houtcome .three opcode.code (by rw [hcontent, ← hformat]; rfl)
  obtain ⟨inst, hinst, htarget, hthree, hcode, hsource, hinstbase⟩ :=
    ObjectCode.objectOf_plain base record.bare opcode.code hne hplain
  rw [hinst] at hsettle
  dsimp only
  rw [← hbase, ← hinstbase, ← hcode, show record.address = inst.source from hsource.symm]
  split
  case isTrue hnear =>
    obtain ⟨object, d, hencode, hdecode, hfield⟩ := Instruction.encode_near htarget hthree hnear
    obtain ⟨hobject, hfaults⟩ := settled_ok (hencode ▸ hsettle)
    exact ⟨d, hobject ▸ hdecode, (decode?_three_field hdecode).2, hfield, hfaults⟩
  case isFalse hfar =>
    split
    case isTrue hnear =>
      obtain ⟨object, d, hencode, hdecode, hfield⟩ :=
        Instruction.encode_based htarget hthree hfar hnear
      obtain ⟨hobject, hfaults⟩ := settled_ok (hencode ▸ hsettle)
      exact ⟨d, hobject ▸ hdecode, (decode?_three_field hdecode).2, by exact_mod_cast hfield,
        hfaults⟩
    case isFalse hout =>
      obtain ⟨distance, hencode, hdistance⟩ :=
        Instruction.encode_outOfReach htarget hthree hfar hout
      rw [hencode] at hsettle
      exact ⟨congrArg Record.object hsettle, distance, hdistance, congrArg Record.faults hsettle⟩

/-- A label that only the base register reaches. -/
theorem relative_field_far :
    ∃ assembly record,
      ofInput .xe { text := "BASE FAR\nLDA FAR\nGAP RESB 4200\nFAR RESB 1\n" } = .ok assembly ∧
      assembly.program.records[1]? = some record ∧ record.statement.operand = Text.ofString "FAR" ∧
      assembly.symbols.get? "FAR" = some 4203 ∧
      ∃ d, decode? .three record.object = some ⟨0, { n := true, i := true, b := true }, d⟩ ∧
        d < 2 ^ 12 ∧ 4203 + d = 4203 := by
  have hassembly :
      ofInput .xe { text := "BASE FAR\nLDA FAR\nGAP RESB 4200\nFAR RESB 1\n" } =
        .ok (ofLines .xe ["BASE FAR", "LDA FAR", "GAP RESB 4200", "FAR RESB 1"]) := rfl
  have hrecord :
      (ofLines .xe ["BASE FAR", "LDA FAR", "GAP RESB 4200", "FAR RESB 1"]).program.records[1]? =
        some { line := 2, source := "LDA FAR", content := .instruction ⟨"LDA", 0, .three⟩,
               statement := { mnemonic := "LDA", operand := "FAR" },
               address := 0, width := 3, object := [0x03, 0x40, 0x00] } := by decide +kernel
  have hlabel :
      (ofLines .xe ["BASE FAR", "LDA FAR", "GAP RESB 4200", "FAR RESB 1"]).symbols.get? "FAR" =
        some 4203 := by decide +kernel
  refine ⟨_, _, hassembly, hrecord, rfl, hlabel, ?_⟩
  have h := relative_field hassembly (by decide +kernel) hrecord rfl rfl
    ⟨hlabel, by decide, unindexed_of_splitIndex (by decide)⟩
  rw [show ObjectCode.baseAfter _ (List.take 1 _) = 4203 by decide +kernel] at h
  obtain ⟨d, hdecode, hd, hfield, -⟩ := h
  exact ⟨d, hdecode, hd, hfield⟩

/-- **Object code is read back.** Of a program that was laid out without a fault, take a record
with object code that is not a label in format 3. Its mnemonic has a format and an opcode, and the
object code is what these and the operand ask for. -/
theorem object_recovers (hassembly : ofInput mode input = .ok assembly)
    (hfree : assembly.program.errorFree = true) (hrecord : record ∈ assembly.program.records)
    (hobject : record.object ≠ [])
    (hplain : ∀ opcode target, mode.encoding? record.statement.mnemonic = some (.three, opcode) →
      ¬ PlainReference assembly.symbols record.statement.operand target) :
    ∃ format opcode, mode.encoding? record.statement.mnemonic = some (format, opcode) ∧
      ObjectCode.IsCode assembly.symbols format opcode record.statement.operand record.object := by
  obtain ⟨k, hk⟩ := List.mem_iff_getElem?.1 hrecord
  obtain rfl := ofInput_eq_ok hassembly
  obtain ⟨hlaid, hnone, base, -, houtcome⟩ := record_outcome hfree hk
  cases he : record.content.encoding? with
  | none => exact absurd (hnone he) hobject
  | some encoding =>
    obtain ⟨format, opcode⟩ := encoding
    have hsettle := houtcome format opcode he
    have hmnemonic : mode.encoding? record.statement.mnemonic = some (format, opcode) :=
      (Layout.encoding_record hlaid he).1
    refine ⟨format, opcode, hmnemonic, ?_⟩
    cases ho : ObjectCode.objectOf (ofLines mode input.lines.lines).symbols base record.bare format
      opcode with
    | error e =>
      rw [ho] at hsettle
      cases e <;> exact absurd (congrArg Record.object hsettle) hobject
    | ok object =>
      obtain ⟨rfl, -⟩ := settled_ok (ho ▸ hsettle)
      exact ObjectCode.objectOf_isCode ho fun hthree target =>
        hplain opcode target (hthree ▸ hmnemonic)

/-- An immediate label with an index, and two registers: numbers 4 and 8. -/
theorem object_recovers_indexed :
    ∃ assembly, ofInput .xe { text := "LDA #T,X\nT RESB 1\nRMO S,PC\n" } = .ok assembly ∧
      (∃ format opcode, Mode.xe.encoding? "LDA" = some (format, opcode) ∧
        ObjectCode.IsCode assembly.symbols format opcode "#T,X" [0x01, 0x80, 0x03]) ∧
      ∃ format opcode, Mode.xe.encoding? "RMO" = some (format, opcode) ∧
        ObjectCode.IsCode assembly.symbols format opcode "S,PC" [0xAC, 0x48] := by
  have hassembly : ofInput .xe { text := "LDA #T,X\nT RESB 1\nRMO S,PC\n" } =
      .ok (ofLines .xe ["LDA #T,X", "T RESB 1", "RMO S,PC"]) := rfl
  have hload : (ofLines .xe ["LDA #T,X", "T RESB 1", "RMO S,PC"]).program.records[0]? =
      some { line := 1, source := "LDA #T,X", content := .instruction ⟨"LDA", 0, .three⟩,
             statement := { mnemonic := "LDA", operand := "#T,X" },
             address := 0, width := 3, object := [0x01, 0x80, 0x03] } := by decide +kernel
  have hmove : (ofLines .xe ["LDA #T,X", "T RESB 1", "RMO S,PC"]).program.records[2]? =
      some { line := 3, source := "RMO S,PC", content := .instruction ⟨"RMO", 0xAC, .two⟩,
             statement := { mnemonic := "RMO", operand := "S,PC" },
             address := 4, width := 2, object := [0xAC, 0x48] } := by decide +kernel
  refine ⟨_, hassembly, ?_, ?_⟩
  · exact object_recovers hassembly (by decide +kernel) (List.mem_of_getElem? hload)
      (by decide) fun _ _ _ hplain => hplain.unmarked.1 rfl
  · refine object_recovers hassembly (by decide +kernel) (List.mem_of_getElem? hmove)
      (by decide) fun opcode _ hmnemonic _ => ?_
    exact absurd hmnemonic (by simp [show Mode.xe.encoding? "RMO" = some (.two, 0xAC) by decide])

end Assembly

end SicXe
