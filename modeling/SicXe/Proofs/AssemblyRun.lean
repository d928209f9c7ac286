import SicXe.Assembly
import SicXe.Proofs.LayoutBounds
import SicXe.Proofs.Encoding

/-!
# Both runs together

* `ofInput_eq_ok`: an assembly comes from the lines of its source, and these are not long.
* `Layout.faults_ofLines`: a layout reports the faults of its records and no others.
* `Assembly.record_outcome`: each record of a program that was laid out without a fault, with the
  outcome of its encoding under the finished labels and the base register announced before it.
-/

namespace SicXe

/-- The format and the opcode of a mnemonic. -/
def Mode.encoding? (mode : Mode) (mnemonic : Text) : Option (Format × UInt8) :=
  if mnemonic = Directive.keyword .byte then some (.byte, 0)
  else if mnemonic = Directive.keyword .word then some (.word, 0)
  else (mode.opcode? mnemonic).map fun opcode => (opcode.format, opcode.code)

/-- The width of a record with the given format: that of its bytes, or that of its format. -/
def Format.extent (format : Format) (operand : Text) : UInt32 :=
  if format = .byte then (Extent.ofByteOperand operand).width else format.width

/-- Bytes that are encoded are as many as were counted. -/
theorem Extent.width_ofByteOperand {text data : Text} (h : Operand.byteConstant? text = some data) :
    (ofByteOperand text).width = UInt32.ofNat data.length ∧ data.length ≤ max text.length 1 := by
  unfold Operand.byteConstant? at h
  cases hsplit : Constant.split? text with
  | some parts =>
    rw [hsplit] at h
    have hle := Constant.length_decode?_le h
    refine ⟨?_, by omega⟩
    rw [ofByteOperand, hsplit]
    dsimp only at h ⊢
    rw [h]
  | none =>
    cases hcount : Numeral.decodeCount text with
    | error e =>
      rw [hsplit, hcount] at h
      cases h
    | ok value =>
      rw [hsplit, hcount] at h
      dsimp only at h
      split at h
      case isTrue => cases h
      case isFalse hrange =>
        cases h
        refine ⟨?_, Nat.le_max_right _ _⟩
        rw [ofByteOperand, hsplit, hcount]
        dsimp only
        rw [if_neg hrange]
        rfl

/-- A constant of so many letters. -/
def Constant.ofLetters (n : Nat) : Text :=
  Text.ofString "C'" ++ List.replicate n 0x41 ++ Text.ofString "'"

section
variable {n : Nat} (hn : 0 < n)

theorem Constant.split?_ofLetters (n : Nat) :
    split? (ofLetters n) = some (.characters, List.replicate n 0x41) :=
  split?_eq_some_iff.2 rfl

include hn

theorem Constant.decode?_ofLetters : decode? (ofLetters n) = some (List.replicate n 0x41) := by
  rw [decode?, split?_ofLetters]
  refine content?_characters.2 ⟨by simpa using hn.ne', fun b hb => ?_, rfl⟩
  rw [List.eq_of_mem_replicate hb]
  decide

theorem Operand.byteConstant?_ofLetters :
    byteConstant? (Constant.ofLetters n) = some (List.replicate n 0x41) := by
  rw [byteConstant?, Constant.split?_ofLetters]
  exact Constant.decode?_ofLetters hn

/-- The letters are counted in 32 bits. -/
theorem Extent.ofByteOperand_ofLetters :
    ofByteOperand (Constant.ofLetters n) = { width := UInt32.ofNat n } := by
  rw [ofByteOperand, Constant.split?_ofLetters]
  dsimp only
  rw [Constant.decode?_ofLetters hn]
  dsimp only
  rw [List.length_replicate]

end

/-- The directory of the extended machine has formats 1 to 3. -/
theorem Opcode.format_of_mem {opcode : Opcode} (h : opcode ∈ Mode.xe.opcodes) :
    opcode.format = .one ∨ opcode.format = .two ∨ opcode.format = .three := by
  have htable : ∀ opcode ∈ Mode.xe.opcodes, opcode.format = .one ∨ opcode.format = .two ∨
      opcode.format = .three := by decide
  exact htable opcode h

/-- Instructions of format 4 are those of format 3, on the extended machine. -/
theorem Mode.extendedOpcode?_eq_some {mode : Mode} {mnemonic : Text} {opcode : Opcode}
    (h : mode.extendedOpcode? mnemonic = some opcode) :
    mode = .xe ∧ ∃ plain ∈ Mode.xe.opcodes, plain.format = .three ∧
      opcode = { plain with format := .four } := by
  cases mode with
  | sic => cases h
  | xe =>
    cases mnemonic with
    | nil => cases h
    | cons marker name =>
      simp only [extendedOpcode?, Option.ite_none_right_eq_some] at h
      obtain ⟨-, h⟩ := h
      cases hplain : Mode.xe.plainOpcode? name with
      | none =>
        rw [hplain] at h
        cases h
      | some plain =>
        rw [hplain] at h
        simp only [Option.ite_none_right_eq_some, Option.some.injEq] at h
        exact ⟨rfl, plain, List.mem_of_find?_eq_some hplain, h.1, h.2.symm⟩

/-- Instructions have a format of one of the machines. -/
theorem Mode.format_of_opcode? {mode : Mode} {mnemonic : Text} {opcode : Opcode}
    (h : mode.opcode? mnemonic = some opcode) :
    opcode.format ∈ [Format.sic, .one, .two, .three, .four] := by
  rcases Option.or_eq_some_iff.1 h with h | ⟨-, h⟩
  · have hmem := List.mem_of_find?_eq_some h
    cases mode with
    | xe => rcases Opcode.format_of_mem hmem with hf | hf | hf <;> simp [hf]
    | sic =>
      obtain ⟨entry, -, rfl⟩ := List.mem_map.1 hmem
      exact List.mem_cons_self
  · obtain ⟨-, plain, -, -, rfl⟩ := extendedOpcode?_eq_some h
    simp

theorem Mode.ne_byte_of_opcode? {mode : Mode} {mnemonic : Text} {opcode : Opcode}
    (h : mode.opcode? mnemonic = some opcode) : opcode.format ≠ .byte := by
  intro hbyte
  have hmem := Mode.format_of_opcode? h
  rw [hbyte] at hmem
  exact absurd hmem (by decide)

/-- Nothing is encoded without a format. -/
theorem Mode.format_of_encoding? {mode : Mode} {mnemonic : Text} {format : Format} {opcode : UInt8}
    (h : mode.encoding? mnemonic = some (format, opcode)) : format ≠ .unknown := by
  unfold Mode.encoding? at h
  split at h
  · cases h
    nofun
  · split at h
    · cases h
      nofun
    · obtain ⟨found, hfound, heq⟩ := Option.map_eq_some_iff.1 h
      cases heq
      have hmem := Mode.format_of_opcode? hfound
      intro hunknown
      rw [hunknown] at hmem
      exact absurd hmem (by decide)

namespace Layout

/-- **A line that is encoded** has a mnemonic with a format and an opcode, and takes up what they
ask for. -/
theorem encoding_contentOf {mode : Mode} {line : Text} {format : Format} {opcode : UInt8}
    (h : (contentOf mode line).encoding? = some (format, opcode)) :
    line.isComment = false ∧
      mode.encoding? (Statement.ofLine line).mnemonic = some (format, opcode) ∧
      widthOf mode line = format.extent (Statement.ofLine line).operand := by
  unfold contentOf at h
  split at h
  case isTrue => cases h
  case isFalse hcomment =>
  split at h
  case isTrue => cases h
  case isFalse hfields =>
  rw [Bool.not_eq_true] at hcomment
  have hstatement := Text.isStatement_iff.2 ⟨hcomment, Nat.le_of_not_lt hfields⟩
  have hwidth (hne : ∀ directive, directive = .start ∨ directive = .finish ∨ directive = .base →
      Directive.ofKeyword? (Statement.ofLine line).mnemonic ≠ some directive) :
      widthOf mode line = (extentAt mode line).2.width := by
    simp only [← Text.isDirective_iff hstatement, ne_eq, Bool.not_eq_true] at hne
    exact if_pos ((Text.definesLabel_iff hstatement).2
      ⟨hne _ (.inl rfl), hne _ (.inr (.inl rfl)), hne _ (.inr (.inr rfl))⟩)
  rw [extentAt] at h hwidth
  cases hd : Directive.ofKeyword? (Statement.ofLine line).mnemonic with
  | none =>
    have hne (directive : Directive) : (Statement.ofLine line).mnemonic ≠ directive.keyword := by
      intro heq
      rw [heq, Directive.ofKeyword?_keyword] at hd
      cases hd
    rw [hwidth (by simp [hd])]
    rw [hd, extentOf] at h ⊢
    rw [Mode.encoding?, if_neg (hne .byte), if_neg (hne .word)]
    cases ho : mode.opcode? (Statement.ofLine line).mnemonic with
    | none => simp [ho, Content.encoding?] at h
    | some found =>
      rw [ho] at h
      cases h
      exact ⟨hcomment, rfl, (if_neg (Mode.ne_byte_of_opcode? ho)).symm⟩
  | some directive =>
    rw [hd] at h hwidth
    rw [Directive.ofKeyword?_eq_some.1 hd]
    cases directive <;> cases h
    · exact ⟨hcomment, rfl, hwidth (by simp)⟩
    · exact ⟨hcomment, rfl, hwidth (by simp)⟩

theorem encoding_record {mode : Mode} {lines : List Text} {symbols : SymbolTable} {k : Nat}
    {record : Record} (h : (ofLines mode lines symbols).records.toList[k]? = some record)
    {format : Format} {opcode : UInt8}
    (he : record.content.encoding? = some (format, opcode)) :
    mode.encoding? record.statement.mnemonic = some (format, opcode) ∧
      record.width = format.extent record.statement.operand := by
  obtain ⟨-, step⟩ := record_step h
  have hmode := (ofLines_laid mode (lines.take k) symbols).machine
  rw [step.content, hmode] at he
  obtain ⟨hcomment, hencoding, hwidth⟩ := encoding_contentOf he
  rw [step.statement, hcomment, step.width, hmode]
  exact ⟨hencoding, hwidth⟩

theorem length_operand_record {mode : Mode} {lines : List Text} {symbols : SymbolTable}
    (hlen : ∀ line ∈ lines, line.length < 2 ^ 31) {k : Nat} {record : Record}
    (h : (ofLines mode lines symbols).records.toList[k]? = some record) :
    record.statement.operand.length < 2 ^ 31 := by
  obtain ⟨hline, step⟩ := record_step h
  have hsource := hlen record.source (List.mem_of_getElem? hline)
  have hoperand := Statement.length_operand_le record.source
  rw [step.statement]
  split
  · exact Nat.two_pow_pos 31
  · omega

/-- The faults of a layout are those of its records. -/
theorem faults_ofLines (mode : Mode) (lines : List Text) (symbols : SymbolTable) :
    (ofLines mode lines symbols).faults.toList =
      (ofLines mode lines symbols).records.toList.flatMap Record.faults := by
  refine ofLines_induction (P := fun _ layout =>
    layout.faults.toList = layout.records.toList.flatMap Record.faults) rfl ?_ lines symbols
  intro done layout line record _ h step
  rw [step.faults, step.records, Array.toList_append, h, Array.toList_push, List.flatMap_append]
  simp

theorem faults_of_errorFree {mode : Mode} {lines : List Text} {symbols : SymbolTable}
    (hfree : (ofLines mode lines symbols).program.errorFree = true) {k : Nat} {record : Record}
    (h : (ofLines mode lines symbols).records.toList[k]? = some record) : record.faults = [] := by
  have hnil := faults_ofLines mode lines symbols
  rw [Array.isEmpty_iff.1 hfree] at hnil
  exact List.flatMap_eq_nil_iff.1 hnil.symm record (List.mem_of_getElem? h)

end Layout

namespace Assembly

variable {mode : Mode} {lines : List Text}

theorem errorFree_ofLines :
    (ofLines mode lines).program.errorFree = (Layout.ofLines mode lines).program.errorFree := by
  unfold ofLines
  dsimp only
  split <;> rfl

/-- No fault at all means no fault of the layout. -/
theorem errorFree_of_faults (h : (ofLines mode lines).faults = []) :
    (ofLines mode lines).program.errorFree = true := by
  rw [errorFree_ofLines]
  cases hfree : (Layout.ofLines mode lines).program.errorFree with
  | true => rfl
  | false =>
    rw [ofLines, if_neg (by rw [hfree]; decide)] at h
    rw [← hfree]
    exact Array.isEmpty_iff.2 (Array.toList_inj.1 h)

theorem symbols_ofLines : (ofLines mode lines).symbols = (Layout.ofLines mode lines).symbols := by
  unfold ofLines
  dsimp only
  split <;> rfl

/-- The second run over a layout. -/
def codeOf (layout : Layout) : ObjectCode := .ofProgram layout.program layout.symbols

theorem ofLines_eq (hfree : (ofLines mode lines).program.errorFree = true) :
    ofLines mode lines =
      { mode
        program := (codeOf (Layout.ofLines mode lines)).complete (Layout.ofLines mode lines).program
        symbols := (Layout.ofLines mode lines).symbols
        faults := (Layout.ofLines mode lines).faults.toList ++
          (codeOf (Layout.ofLines mode lines)).faults.toList } :=
  if_pos (errorFree_ofLines ▸ hfree)

theorem program_ofLines (hfree : (ofLines mode lines).program.errorFree = true) :
    (ofLines mode lines).program.name = (Layout.ofLines mode lines).name ∧
      (ofLines mode lines).program.start = (Layout.ofLines mode lines).start ∧
      (ofLines mode lines).program.length = (Layout.ofLines mode lines).program.length := by
  rw [ofLines_eq hfree]
  exact ⟨rfl, rfl, rfl⟩

theorem count_ofLines (hfree : (ofLines mode lines).program.errorFree = true) :
    (ofLines mode lines).program.records.length =
      (Layout.ofLines mode lines).records.toList.length := by
  rw [ofLines_eq hfree]
  exact ObjectCode.length_records rfl _

/-- A record of a layout without a fault has neither object bytes nor faults. -/
theorem bare_layout (hfree : (Layout.ofLines mode lines).program.errorFree = true) {k : Nat}
    {record : Record} (h : (Layout.ofLines mode lines).records.toList[k]? = some record) :
    record.bare = record := by
  obtain ⟨-, step⟩ := Layout.record_step h
  rw [Record.bare, ← Layout.faults_of_errorFree hfree h, ← step.object]

/-- **The outcome for a record** of a program that was laid out without a fault. -/
theorem record_outcome (hfree : (ofLines mode lines).program.errorFree = true) {k : Nat}
    {record : Record} (h : (ofLines mode lines).program.records[k]? = some record) :
    (Layout.ofLines mode lines).records.toList[k]? = some record.bare ∧
      (record.content.encoding? = none → record.object = []) ∧
      ∃ base : UInt32,
        base.toNat = ObjectCode.baseAfter (ofLines mode lines).symbols
          ((ofLines mode lines).program.records.take k) ∧
        ∀ format opcode, record.content.encoding? = some (format, opcode) →
          record = record.bare.settle (ObjectCode.objectOf (ofLines mode lines).symbols base
            record.bare format opcode) := by
  rw [ofLines_eq hfree] at h ⊢
  rw [errorFree_ofLines] at hfree
  obtain ⟨laid, code, next, hlaid, step, hsymbols, hbase⟩ := ObjectCode.record_ofProgram h
  have hbare : record.bare = laid := by rw [step.bare, bare_layout hfree hlaid]
  have hcontent : record.content = laid.content := by rw [← hbare]; rfl
  have hrecords : (codeOf (Layout.ofLines mode lines)).records.toList.map Record.bare =
      (Layout.ofLines mode lines).program.records.map Record.bare :=
    ObjectCode.bare_records rfl _
  refine ⟨by rw [hbare]; exact hlaid, fun hplain => ?_, code.base, ?_, fun format opcode he => ?_⟩
  case refine_1 =>
    rw [step.plain (hcontent ▸ hplain), ← hbare]
    rfl
  case refine_2 =>
    rw [hbase, ← ObjectCode.baseAfter_map_bare, List.map_take, ← hrecords, ← List.map_take,
      ObjectCode.baseAfter_map_bare]
    rfl
  case refine_3 =>
    rw [hbare]
    refine (step.encoded format opcode (hcontent ▸ he)).trans ?_
    rw [hsymbols]

/-- **Object code fills its record**, if there is any. -/
theorem length_object (hfree : (ofLines mode lines).program.errorFree = true)
    (hlen : ∀ line ∈ lines, line.length < 2 ^ 31) {k : Nat} {record : Record}
    (h : (ofLines mode lines).program.records[k]? = some record) :
    record.object = [] ∨ record.object.length = record.width.toNat := by
  obtain ⟨hlaid, hnone, base, -, houtcome⟩ := record_outcome hfree h
  cases he : record.content.encoding? with
  | none => exact .inl (hnone he)
  | some encoding =>
    obtain ⟨format, opcode⟩ := encoding
    have hsettle := houtcome format opcode he
    have hwidth : record.width = format.extent record.statement.operand :=
      (Layout.encoding_record hlaid he).2
    cases ho : ObjectCode.objectOf (ofLines mode lines).symbols base record.bare format opcode with
    | error e =>
      rw [ho] at hsettle
      cases e <;> exact .inl (congrArg Record.object hsettle)
    | ok object =>
      rw [ho] at hsettle
      have hobject : record.object = object := congrArg Record.object hsettle
      right
      rw [hobject, hwidth, Format.extent]
      split
      case isFalse hformat => exact ObjectCode.length_objectOf hformat ho
      case isTrue hformat =>
        -- the width of bytes is counted in 32 bits, and a line is far shorter
        subst hformat
        obtain ⟨hbyte, hle⟩ :=
          Extent.width_ofByteOperand (ObjectCode.byteConstant?_of_objectOf ho)
        have hoperand := Layout.length_operand_record hlen hlaid
        change object.length = (Extent.ofByteOperand record.bare.statement.operand).width.toNat
        rw [hbyte, UInt32.toNat_ofNat', Nat.mod_eq_of_lt (by omega)]

theorem ofInput_eq_ok {input : Input} {assembly : Assembly}
    (h : ofInput mode input = .ok assembly) :
    assembly = ofLines mode input.lines.lines := by
  unfold ofInput at h
  dsimp only at h
  split at h
  · cases h
  · exact (Except.ok.inj h).symm

end Assembly

end SicXe
