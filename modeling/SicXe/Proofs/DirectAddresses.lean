import SicXe.Proofs.DataOperands
import SicXe.Proofs.Outcomes
import SicXe.Proofs.Relocation

/-!
# Labels in full address fields

A full address field holds every address of the machine's memory. A label may stand for one more,
the end of the memory, and there the field is cut to zero:

* `Mode.memorySize_of_opcode?`: a full address field has as many bits as the addresses of the
  machine.
* `Layout.width_of_end`, `Layout.reserves_of_width`: a statement at the end of the memory takes up
  nothing, so it reserves no storage.
* `Assembly.direct_field`: what a full address field has for a label.
-/

namespace SicXe

/-! ## Address fields and memories -/

namespace Mode

variable {mode : Mode} {mnemonic : Text} {opcode : Opcode}

/-- Only the base machine has its format, and format 4 is not written plainly. -/
theorem format_of_plainOpcode? (h : mode.plainOpcode? mnemonic = some opcode) :
    opcode.format ≠ .four ∧ (opcode.format = .sic → mode = .sic) := by
  have hmem := List.mem_of_find?_eq_some h
  cases mode with
  | xe => rcases Opcode.format_of_mem hmem with hf | hf | hf <;> simp [hf]
  | sic =>
    obtain ⟨entry, -, rfl⟩ := List.mem_map.1 hmem
    exact ⟨by simp, fun _ => rfl⟩

/-- **A full address field** has as many bits as the addresses of the machine. -/
theorem memorySize_of_opcode? (h : mode.opcode? mnemonic = some opcode)
    (hformat : opcode.format = .sic ∨ opcode.format = .four) :
    mode.memorySize.toNat = 2 ^ opcode.format.addressBits := by
  have hmode : opcode.format = .sic ∧ mode = .sic ∨ opcode.format = .four ∧ mode = .xe := by
    rcases Option.or_eq_some_iff.1 h with hplain | ⟨-, hextended⟩
    · obtain ⟨hfour, hsic⟩ := format_of_plainOpcode? hplain
      have hf := hformat.resolve_right hfour
      exact .inl ⟨hf, hsic hf⟩
    · obtain ⟨hxe, plain, -, -, rfl⟩ := extendedOpcode?_eq_some hextended
      exact .inr ⟨rfl, hxe⟩
  rcases hmode with ⟨hf, rfl⟩ | ⟨hf, rfl⟩ <;> rw [hf] <;> rfl

end Mode

/-! ## Statements at the end of the memory -/

theorem Format.width_ne_zero (format : Format) : format.width ≠ 0 := by
  cases format <;> decide

namespace Layout

variable {mode : Mode} {lines : List Text} {symbols : SymbolTable} {k : Nat} {record : Record}

section
variable (hfree : (ofLines mode lines symbols).program.errorFree = true)
  (hlen : ∀ line ∈ lines, line.length < 2 ^ 31)
  (h : (ofLines mode lines symbols).records.toList[k]? = some record)
include hfree hlen h

/-- A statement at the end of the memory takes up nothing. -/
theorem width_of_end (hend : record.address = mode.memorySize) : record.width = 0 := by
  obtain ⟨hexact, hfits⟩ := total_exact hfree hlen
  have hlength := length_exact hfree hlen
  rw [← UInt32.toNat_inj]
  refine Nat.eq_zero_of_not_pos fun hpos => ?_
  obtain ⟨-, hinside⟩ := record_inside hfree hlen h hpos
  rw [hend] at hinside
  omega

/-- **A statement with a label that takes up nothing** reserves no storage. -/
theorem reserves_of_width (hlabel : record.source.definesLabel = true) (hwidth : record.width = 0) :
    record.content = .directive .reserveBytes ∨ record.content = .directive .reserveWords := by
  obtain ⟨hline, step⟩ := record_step h
  have hmode := (ofLines_laid mode (lines.take k) symbols).machine
  have hfaults := step.found.symm.trans (faults_of_errorFree hfree h)
  obtain ⟨-, hknown, hflaw, -⟩ := (lineFaults_storage hlabel).1 hfaults
  have hstatement := Text.isStatement_of_definesLabel hlabel
  obtain ⟨hcomment, hfew⟩ := Text.isStatement_iff.1 hstatement
  obtain ⟨hstart, hfinish, hbase⟩ := (Text.definesLabel_iff hstatement).1 hlabel
  rw [step.width, widthOf, if_pos hlabel] at hwidth
  rw [step.content, contentOf, if_neg (by simp [hcomment]), if_neg (by omega)]
  rw [hmode, extentAt] at hknown hflaw hwidth ⊢
  cases hd : Directive.ofKeyword? (Statement.ofLine record.source).mnemonic with
  | none =>
    rw [hd, extentOf] at hwidth hknown
    cases hopcode : mode.opcode? (Statement.ofLine record.source).mnemonic with
    | none =>
      rw [hopcode] at hknown
      exact absurd rfl hknown
    | some opcode =>
      rw [hopcode] at hwidth
      exact absurd hwidth (Format.width_ne_zero _)
  | some directive =>
    rw [hd] at hwidth hflaw
    have hdirective := (Text.isDirective_iff hstatement).2 hd
    cases directive with
    | reserveBytes => exact .inl rfl
    | reserveWords => exact .inr rfl
    | start => cases hdirective.symm.trans hstart
    | finish => cases hdirective.symm.trans hfinish
    | base => cases hdirective.symm.trans hbase
    | word => cases hwidth
    | byte =>
      -- a byte directive without a flaw has bytes, and they are counted exactly
      obtain ⟨data, hdata⟩ :=
        Option.isSome_iff_exists.1 ((Extent.flaw_ofByteOperand_iff _).1 hflaw)
      have hshort := hlen record.source (List.mem_of_getElem? hline)
      have hoperand := Statement.length_operand_le record.source
      have hfew : data.length < 2 ^ 32 := by
        refine Nat.lt_of_not_le fun hmany => ?_
        have hlong := (Extent.length_byteConstant? hdata).2.2 hmany
        omega
      have hcount := (Extent.length_byteConstant? hdata).2.1.2 hfew
      have hpos := List.length_pos_iff.2 (Operand.byteConstant?_ne_nil hdata)
      rw [show (Extent.ofByteOperand _).width = 0 from hwidth] at hcount
      exact absurd hcount (Nat.ne_of_lt hpos)

end

/-- The statement that gave a label its address. -/
theorem exists_defines_of_get? {label : Text} {address : UInt32}
    (h : (ofLines mode lines symbols).symbols.get? label = some address) :
    ∃ (k : Nat) (record : Record), (ofLines mode lines symbols).records.toList[k]? = some record ∧
      Defines record label ∧ record.address = address := by
  rw [(ofLines_laid mode lines symbols).symbols] at h
  obtain ⟨record, hrecord, rfl⟩ := Option.map_eq_some_iff.1 h
  obtain ⟨-, k, hk, hdefines, -⟩ := definition?_eq_some.1 hrecord
  exact ⟨k, record, hk, hdefines, rfl⟩

end Layout

/-! ## Full address fields -/

namespace Assembly

open Operand

variable {assembly : Assembly} {input : Input} {mode : Mode} {record : Record}

/-- A record whose label stands for the end of the memory: it reserves no storage there. -/
structure IsEndLabel (mode : Mode) (name : Text) (record : Record) : Prop where
  label : record.statement.label = name
  address : record.address = mode.memorySize
  reserves : record.content = .directive .reserveBytes ∨ record.content = .directive .reserveWords
  width : record.width = 0

/-- **A label is in memory**, or on a reservation of no storage at its end. -/
theorem target_cases {lines : List Text}
    (hfree : (ofLines mode lines).program.errorFree = true)
    (hlen : ∀ line ∈ lines, line.length < 2 ^ 31) {name : Text} {target : UInt32}
    (h : (ofLines mode lines).symbols.get? name = some target) :
    target < mode.memorySize ∨ target = mode.memorySize ∧
      ∃ definer ∈ (ofLines mode lines).program.records, IsEndLabel mode name definer := by
  rw [symbols_ofLines] at h
  obtain ⟨k, laid, hlaid, ⟨hlabel, hname⟩, rfl⟩ := Layout.exists_defines_of_get? h
  have hlayout := errorFree_ofLines ▸ hfree
  have hle := Layout.address_le hlayout (List.mem_of_getElem? hlaid)
  rcases Nat.lt_or_eq_of_le hle with hlt | heq
  · exact .inl (UInt32.lt_iff_toNat_lt.2 hlt)
  · have hend := UInt32.toNat_inj.1 heq
    refine .inr ⟨hend, ?_⟩
    have hwidth := Layout.width_of_end hlayout hlen hlaid hend
    have hreserves := Layout.reserves_of_width hlayout hlen hlaid hlabel hwidth
    have hk : k < (ofLines mode lines).program.records.length := by
      rw [count_ofLines hfree]
      exact (List.getElem?_eq_some_iff.1 hlaid).1
    have hrecord := List.getElem?_eq_getElem hk
    have hbare := Option.some.inj ((record_outcome hfree hrecord).1.symm.trans hlaid)
    refine ⟨_, List.mem_of_getElem? hrecord, ?_⟩
    subst hbare
    exact ⟨hname, hend, hreserves, hwidth⟩

/-- **Labels in full address fields.** Of a program that was laid out without a fault, take an
instruction of the base format or of format 4 whose operand is a label, indexed or not. The record
has object code, and its field has the address of the label; only for a label at the very end of the
memory it has zero instead, and such a label is on a reservation of no storage. -/
theorem direct_field (hassembly : ofInput mode input = .ok assembly)
    (hfree : assembly.program.errorFree = true) (hrecord : record ∈ assembly.program.records)
    {opcode : Opcode} (hcontent : record.content = .instruction opcode)
    (hformat : opcode.format = .sic ∨ opcode.format = .four) {name : Text} {indexed : Bool}
    (hmarked : Marked record.statement.operand .simple name indexed) {target : UInt32}
    (htarget : assembly.symbols.get? name = some target) :
    ∃ decoded, decode? opcode.format record.object = some decoded ∧
      decoded.opcode =
        (if opcode.format = .sic then opcode.code.toNat else opcode.code.toNat / 4) ∧
      decoded.flags = Instruction.flagsOf opcode.format .simple indexed ∧
      (target < mode.memorySize ∧ decoded.field = target.toNat ∨
        target = mode.memorySize ∧ decoded.field = 0 ∧
          ∃ definer ∈ assembly.program.records, IsEndLabel mode name definer) := by
  obtain rfl := ofInput_eq_ok hassembly
  obtain ⟨k, hk⟩ := List.mem_iff_getElem?.1 hrecord
  obtain ⟨hlaid, -, base, -, houtcome⟩ := record_outcome hfree hk
  have hencoding : record.content.encoding? = some (opcode.format, opcode.code) := by
    rw [hcontent]
    rfl
  have hsize := Mode.memorySize_of_opcode? (Layout.opcode_record hlaid hcontent) hformat
  obtain ⟨object, decoded, hobject, hdecode, hopcode, hflags, hfield⟩ :=
    @ObjectCode.objectOf_marked _ record.bare _ opcode.code _ _ _ hformat hmarked
      (ne_nil_of_get? htarget) htarget base
  obtain ⟨heq, -⟩ := settled_ok (hobject ▸ houtcome _ _ hencoding)
  refine ⟨decoded, heq ▸ hdecode, hopcode, hflags, ?_⟩
  rw [← hsize] at hfield
  have hlen : ∀ line ∈ input.lines.lines, line.length < 2 ^ 31 := fun line hline =>
    Nat.lt_of_le_of_lt (Input.length_le_of_mem_lines hline) (by decide)
  rcases target_cases hfree hlen htarget with hlt | ⟨hend, hdefiner⟩
  · exact .inl ⟨hlt, hfield.trans (Nat.mod_eq_of_lt (UInt32.lt_iff_toNat_lt.1 hlt))⟩
  · exact .inr ⟨hend, by rw [hfield, hend, Nat.mod_self], hdefiner⟩

/-- An indexed label in format 4. -/
theorem direct_field_indexed :
    ∃ assembly, ofInput .xe { text := "+LDA T,X\nT RESB 1\n" } = .ok assembly ∧
      assembly.symbols.get? "T" = some 4 ∧
      ∃ decoded, decode? .four [0x03, 0x90, 0x00, 0x04] = some decoded ∧
        decoded.flags = { n := true, i := true, x := true, e := true } ∧ decoded.field = 4 := by
  have hassembly : ofInput .xe { text := "+LDA T,X\nT RESB 1\n" } =
      .ok (ofLines .xe ["+LDA T,X", "T RESB 1"]) := rfl
  have hrecord : (ofLines .xe ["+LDA T,X", "T RESB 1"]).program.records[0]? =
      some { line := 1, source := "+LDA T,X", content := .instruction ⟨"LDA", 0, .four⟩,
             statement := { mnemonic := "+LDA", operand := "T,X" },
             address := 0, width := 4, object := [0x03, 0x90, 0x00, 0x04] } := by decide +kernel
  have hlabel : (ofLines .xe ["+LDA T,X", "T RESB 1"]).symbols.get? "T" = some 4 := by
    decide +kernel
  have hmarked : Operand.Marked "T,X" .simple "T" true :=
    ⟨rfl, by decide, List.cons_ne_nil _ _⟩
  obtain ⟨decoded, hdecode, -, hflags, hfield⟩ := direct_field hassembly (by decide +kernel)
    (List.mem_of_getElem? hrecord) rfl (.inr rfl) hmarked hlabel
  refine ⟨_, hassembly, hlabel, decoded, hdecode, hflags, ?_⟩
  rcases hfield with ⟨-, hfield⟩ | ⟨hend, -⟩
  · exact hfield
  · exact absurd hend (by decide)

/-- **A label at the end of the memory** is cut to address zero without a fault. -/
theorem end_label_truncated :
    ∃ assembly record,
      ofInput .sic { text := "P START 7FFD\n LDA T\nT RESB 0\n" } = .ok assembly ∧
      assembly.faults = [] ∧ record ∈ assembly.program.records ∧
      record.content = .instruction ⟨"LDA", 0, .sic⟩ ∧
      Operand.Marked record.statement.operand .simple "T" false ∧
      assembly.symbols.get? "T" = some 0x8000 ∧
      decode? .sic record.object = some ⟨0, {}, 0⟩ := by
  have hassembly : ofInput .sic { text := "P START 7FFD\n LDA T\nT RESB 0\n" } =
      .ok (ofLines .sic ["P START 7FFD", " LDA T", "T RESB 0"]) := rfl
  have hrecord : (ofLines .sic ["P START 7FFD", " LDA T", "T RESB 0"]).program.records[1]? =
      some { line := 2, source := " LDA T", content := .instruction ⟨"LDA", 0, .sic⟩,
             statement := { mnemonic := "LDA", operand := "T" },
             address := 0x7FFD, width := 3, object := [0x00, 0x00, 0x00] } := by decide +kernel
  have hmarked : Operand.Marked "T" .simple "T" false :=
    ⟨rfl, by decide, unindexed_of_splitIndex (by decide)⟩
  exact ⟨_, _, hassembly, by decide +kernel, List.mem_of_getElem? hrecord, rfl, hmarked,
    by decide +kernel, by decide +kernel⟩

end Assembly

end SicXe
