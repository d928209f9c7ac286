import Mathlib.Data.List.Forall2
import SicXe.Proofs.AssemblyRun

/-!
# What the second run makes of a record

The encoder has failures that no program may cause: a byte directive whose operand was not checked,
a format 2 instruction without registers, an operand that was not resolved, a format without a
layout. They are `Defect`s.

* `Instruction.Encodable`: what the encoder expects of a statement; `encode_of_encodable`: then
  there are object bytes or a fault of the program, and no defect.
* `resolve_encodable`: a resolution that does not fail gives what the encoder expects, under any
  symbol table.
* `Record.Prepared`, `prepared_record`: what the layout grants of a record, with or without faults.
* `Record.Outcome`, `pushRecord_outcome`: what one record gets.
* `ofProgram_outcomes`: the second run over a layout has no defect, and each record gets its object
  bytes or its fault.
* `letters_not_counted`: a line with more bytes than a width can count.
-/

namespace SicXe

namespace Instruction

/-- What the encoder expects: the operand of a byte directive is a constant, format 2 has registers,
and anything else has a layout and an operand that was resolved. -/
def Encodable (inst : Instruction) : Prop :=
  match inst.format with
  | .byte => ∃ data, Operand.byteConstant? inst.operand = some data
  | .two => inst.target.kind = .register ∨ inst.target.kind = .registerPair
  | .unknown => False
  | _ => inst.target.kind ≠ .unresolved

theorem layOut_ok {format : Format} (hbyte : format ≠ .byte) (hunknown : format ≠ .unknown)
    (opcode : UInt8) (flags : Flags) (value second : UInt32) :
    ∃ object, layOut format opcode flags value second = .ok object := by
  cases format with
  | byte => exact absurd rfl hbyte
  | unknown => exact absurd rfl hunknown
  | sic | one | two | three | four | word => exact ⟨_, rfl⟩

private theorem encode_resolved {inst : Instruction} (hbyte : inst.format ≠ .byte)
    (htwo : inst.format ≠ .two) (hunknown : inst.format ≠ .unknown)
    (hkind : inst.target.kind ≠ .unresolved) :
    (∃ object, inst.encode = .ok object) ∨ ∃ cause, inst.encode = .error (.fault cause) := by
  cases hfield : inst.displacement with
  | ok field =>
    rw [encode_of_field ⟨hbyte, htwo⟩ hkind hfield]
    exact .inl (layOut_ok hbyte hunknown _ _ _ _)
  | error cause =>
    refine .inr ⟨cause, ?_⟩
    unfold encode
    split
    case h_1 h => exact absurd h hbyte
    case h_2 h => exact absurd h htwo
    case h_3 => rw [if_neg hkind, hfield]

/-- **The encoder has no defect** on what it expects. -/
theorem encode_of_encodable {inst : Instruction} (h : inst.Encodable) :
    (∃ object, inst.encode = .ok object) ∨ ∃ cause, inst.encode = .error (.fault cause) := by
  unfold Encodable at h
  split at h
  case h_1 hformat =>
    obtain ⟨data, hdata⟩ := h
    refine .inl ⟨data, ?_⟩
    unfold encode
    rw [hformat]
    dsimp only
    rw [hdata]
  case h_2 hformat =>
    refine .inl ?_
    unfold encode
    rw [hformat]
    rcases h with h | h <;> rw [h] <;> exact ⟨_, rfl⟩
  case h_3 => exact absurd h id
  case h_4 hbyte htwo hunknown => exact encode_resolved hbyte htwo hunknown h

end Instruction

namespace Operand

theorem byteConstant?_ne_nil {text data : Text} (h : byteConstant? text = some data) :
    data ≠ [] := by
  cases byteConstant?_eq_some h with
  | constant decoded => exact Constant.decode?_ne_nil decoded
  | number => exact List.cons_ne_nil _ _

theorem resolveMemory_kind {text : Text} {format : Format} {symbols : SymbolTable}
    (h : (resolveMemory text format symbols).failure = none) :
    (resolveMemory text format symbols).operand.kind ≠ .unresolved := by
  by_cases ht : text = []
  · rw [resolveMemory, if_pos ht]
    intro hkind
    cases hkind
  · obtain ⟨addressing, name, indexed, value, -, -, -, hoperand⟩ := resolveMemory_ok ht h
    rw [hoperand]
    dsimp only
    split <;> intro hkind <;> cases hkind

end Operand

namespace ObjectCode

open Operand

/-- **Resolved operands suit the encoder**, whatever the labels are. -/
theorem resolve_encodable {symbols : SymbolTable} {record : Record} {format : Format}
    (hformat : format ≠ .unknown)
    (h : (resolve record.statement.operand format symbols).failure = none) (opcode : UInt8)
    (base : UInt32) :
    (instruction record (resolve record.statement.operand format symbols).operand format opcode
      base).Encodable := by
  cases format with
  | unknown => exact absurd rfl hformat
  | sic | three | four => exact resolveMemory_kind h
  | one =>
    change (resolve record.statement.operand .one symbols).operand.kind ≠ .unresolved
    unfold resolve at h ⊢
    dsimp only at h ⊢
    split at h
    case isTrue ht =>
      rw [if_pos ht]
      intro hkind
      cases hkind
    case isFalse => simp [reject] at h
  | two =>
    obtain ⟨value, second, -, ⟨hoperand, -⟩ | hoperand⟩ := resolveRegisters_ok h
    · exact .inl (congrArg Operand.kind hoperand)
    · exact .inr (congrArg Operand.kind hoperand)
  | byte =>
    change ∃ data, byteConstant? record.statement.operand = some data
    unfold resolve at h
    cases hdata : byteConstant? record.statement.operand with
    | some data => exact ⟨data, rfl⟩
    | none => simp [hdata, reject] at h
  | word =>
    obtain ⟨value, -, -, hkind⟩ := resolve_word_ok h
    exact hkind

theorem objectOf_cases (symbols : SymbolTable) (base : UInt32) (record : Record) {format : Format}
    (hformat : format ≠ .unknown) (opcode : UInt8) :
    (∃ object, objectOf symbols base record format opcode = .ok object) ∨
      ∃ cause, objectOf symbols base record format opcode = .error (.fault cause) := by
  unfold objectOf
  dsimp only
  cases h : (resolve record.statement.operand format symbols).failure with
  | some cause => exact .inr ⟨cause, rfl⟩
  | none => exact Instruction.encode_of_encodable (resolve_encodable hformat h opcode base)

end ObjectCode

/-! ## What the layout grants -/

/-- A record as the layout leaves it: without object bytes, and with the width of its format if it
is to be encoded. -/
structure Record.Prepared (record : Record) : Prop where
  object : record.object = []
  operand : record.statement.operand.length ≤ record.source.length
  encoding : ∀ format opcode, record.content.encoding? = some (format, opcode) →
    format ≠ .unknown ∧ record.width = format.extent record.statement.operand
  byte : ∀ opcode, record.content.encoding? = some (.byte, opcode) →
    record.content = .directive .byte

theorem Layout.prepared_record {mode : Mode} {lines : List Text} {symbols : SymbolTable}
    {record : Record} (h : record ∈ (ofLines mode lines symbols).records.toList) :
    record.Prepared := by
  obtain ⟨k, hk⟩ := List.mem_iff_getElem?.1 h
  obtain ⟨-, step⟩ := record_step hk
  refine ⟨step.object, ?_, ?_, ?_⟩
  · rw [step.statement]
    split
    · exact Nat.zero_le _
    · exact Statement.length_operand_le _
  · intro format opcode he
    obtain ⟨hencoding, hwidth⟩ := encoding_record hk he
    exact ⟨Mode.format_of_encoding? hencoding, hwidth⟩
  · intro opcode he
    cases hcontent : record.content with
    | instruction found =>
      rw [hcontent] at he
      have hbyte : found.format = .byte := congrArg Prod.fst (Option.some.inj he)
      exact absurd hbyte (Mode.ne_byte_of_opcode? (opcode_record hk hcontent))
    | directive directive =>
      rw [hcontent] at he
      cases directive <;> cases he
      rfl
    | comment | unknown | overfull =>
      rw [hcontent] at he
      cases he

/-- **Object bytes are as many as the width says**, counted in 32 bits as the width is. Only a byte
directive on a line of `2 ^ 32` bytes can have so many that this tells them apart. -/
theorem Record.Prepared.count {record : Record} (h : record.Prepared) {symbols : SymbolTable}
    {base : UInt32} {format : Format} {opcode : UInt8} {object : Text}
    (he : record.content.encoding? = some (format, opcode))
    (hobject : ObjectCode.objectOf symbols base record format opcode = .ok object) :
    object ≠ [] ∧ record.width = UInt32.ofNat object.length ∧
      (2 ^ 32 ≤ object.length →
        record.content = .directive .byte ∧ 2 ^ 32 ≤ record.source.length) := by
  obtain ⟨-, hwidth⟩ := h.encoding format opcode he
  rw [hwidth, Format.extent]
  split
  case isTrue hbyte =>
    subst hbyte
    have hdata := ObjectCode.byteConstant?_of_objectOf hobject
    obtain ⟨hcount, hle⟩ := Extent.width_ofByteOperand hdata
    have hoperand := h.operand
    exact ⟨Operand.byteConstant?_ne_nil hdata, hcount, fun hlong => ⟨h.byte opcode he, by omega⟩⟩
  case isFalse hbyte =>
    have hlength := ObjectCode.length_objectOf hbyte hobject
    have hbound := format.width.toNat_lt
    refine ⟨?_, by rw [hlength, UInt32.ofNat_toNat], fun hlong => by omega⟩
    rintro rfl
    cases format <;> cases hlength

/-! ## One record -/

/-- What the second run makes of a record: the faults it adds, and the record with them. -/
structure Record.Outcome (record result : Record) (added : List Fault) : Prop where
  /-- Nothing else changes. -/
  kept : result = { record with object := result.object, faults := record.faults ++ added }
  /-- An instruction, a byte or a word directive has as many object bytes as its width says, or one
  fault. The width counts them in 32 bits, which is their number unless there are `2 ^ 32` or more;
  so many has at most a byte directive on a line that is as long. -/
  encoded : record.content.encoding?.isSome = true →
    (result.object ≠ [] ∧ result.width = UInt32.ofNat result.object.length ∧
        (result.object.length = result.width.toNat ↔ result.object.length < 2 ^ 32) ∧
        (2 ^ 32 ≤ result.object.length →
          record.content = .directive .byte ∧ 2 ^ 32 ≤ record.source.length) ∧
        added = []) ∨
      (result.object = [] ∧ ∃ fault, added = [fault])
  /-- A base or an end directive has no object bytes and at most one fault. -/
  located : record.content = .directive .base ∨ record.content = .directive .finish →
    result.object = [] ∧ added.length ≤ 1
  other : record.content.encoding? = none → record.content ≠ .directive .base →
    record.content ≠ .directive .finish → result = record ∧ added = []

namespace ObjectCode

/-- A run and the next one, after a record with the given outcome. -/
structure Advance (code : ObjectCode) (result : Record) (added : List Fault) (next : ObjectCode) :
    Prop where
  records : next.records = code.records.push result
  faults : next.faults = code.faults ++ added.toArray
  defects : next.defects = code.defects

section
variable (code : ObjectCode) {record : Record} (h : record.Prepared)
include h

theorem encode_outcome {format : Format} {opcode : UInt8}
    (he : record.content.encoding? = some (format, opcode)) :
    ∃ result added, Record.Outcome record result added ∧
      Advance code result added (code.encode record format opcode) := by
  have hlocated : ¬ (record.content = .directive .base ∨ record.content = .directive .finish) := by
    intro hd
    rw [encoding?_directive hd] at he
    cases he
  have hsome : ¬ record.content.encoding? = none := by simp [he]
  obtain ⟨hformat, -⟩ := h.encoding format opcode he
  rcases objectOf_cases code.symbols code.base record hformat opcode with
    ⟨object, hobject⟩ | ⟨cause, hcause⟩
  · refine ⟨{ record with object }, [], ?_, ?_⟩
    · obtain ⟨hne, hcount, hlong⟩ := h.count he hobject
      have hexact : object.length = record.width.toNat ↔ object.length < 2 ^ 32 := by
        rw [hcount, UInt32.toNat_ofNat']
        omega
      exact {
        kept := by rw [List.append_nil]
        encoded := fun _ => .inl ⟨hne, hcount, hexact, hlong, rfl⟩
        located := fun hd => absurd hd hlocated
        other := fun hnone => absurd hnone hsome }
    · obtain ⟨hok, hencode⟩ := objectOf_eq_ok hobject
      unfold encode
      dsimp only
      rw [hok]
      dsimp only
      rw [hencode]
      exact ⟨rfl, (Array.append_empty ..).symm, rfl⟩
  · let fault := record.faultAt record.statement.operand cause
    refine ⟨{ record with faults := record.faults ++ [fault] }, [fault], ?_, ?_⟩
    · exact {
        kept := rfl
        encoded := fun _ => .inr ⟨h.object, _, rfl⟩
        located := fun hd => absurd hd hlocated
        other := fun hnone => absurd hnone hsome }
    · have hfail : code.encode record format opcode = code.fail record cause := by
        unfold objectOf at hcause
        unfold encode
        dsimp only at hcause ⊢
        cases hfailure : (Operand.resolve record.statement.operand format code.symbols).failure with
        | some failure =>
          rw [hfailure] at hcause
          cases hcause
          rfl
        | none =>
          rw [hfailure] at hcause
          dsimp only at hcause ⊢
          rw [hcause]
      rw [hfail]
      exact ⟨rfl, Array.push_eq_append .., rfl⟩

/-- The outcome of a directive that adds the given faults, at most one. -/
theorem outcome_located (hd : record.content = .directive .base ∨
    record.content = .directive .finish) {added : List Fault} (hadded : added.length ≤ 1) :
    Record.Outcome record { record with faults := record.faults ++ added } added where
  kept := rfl
  encoded := fun hsome => by simp [encoding?_directive hd] at hsome
  located := fun _ => ⟨h.object, hadded⟩
  other := fun _ hbase hfinish => by simp [hbase, hfinish] at hd

theorem fail_outcome (hd : record.content = .directive .base ∨
    record.content = .directive .finish) (cause : Cause) :
    ∃ result added, Record.Outcome record result added ∧
      Advance code result added (code.fail record cause) :=
  ⟨_, [record.faultAt record.statement.operand cause], outcome_located h hd (Nat.le_refl 1), rfl,
    Array.push_eq_append .., rfl⟩

/-- A directive without a fault; base register, entry point and notes may change. -/
theorem keep_outcome (hd : record.content = .directive .base ∨
    record.content = .directive .finish) (base entry : UInt32) (notes : Array Note) :
    ∃ result added, Record.Outcome record result added ∧
      Advance code result added { code.keep record with base, entry, notes } := by
  refine ⟨_, [], outcome_located h hd (Nat.zero_le 1), ?_, (Array.append_empty ..).symm, rfl⟩
  rw [List.append_nil]
  rfl

/-- **One record**: what it gets, and that the run has no defect of it. -/
theorem pushRecord_outcome :
    ∃ result added, Record.Outcome record result added ∧
      Advance code result added (code.pushRecord record) := by
  rcases code.pushRecord_cases record with
    ⟨format, opcode, he, hpush⟩ | ⟨hd, hpush⟩ | ⟨hd, hpush⟩ | ⟨he, hbase, hfinish, hpush⟩ <;>
    rw [hpush]
  case inl => exact encode_outcome code h he
  case inr.inl =>
    rw [setBase]
    cases address code.symbols record.statement.operand with
    | error cause => exact fail_outcome code h (.inl hd) cause
    | ok base => exact keep_outcome code h (.inl hd) base code.entry _
  case inr.inr.inl =>
    rw [setEntry]
    dsimp only
    split
    · exact keep_outcome code h (.inr hd) code.base code.entry code.notes
    · split
      · exact keep_outcome code h (.inr hd) code.base code.start code.notes
      · cases address code.symbols record.statement.operand with
        | error cause => exact fail_outcome code h (.inr hd) cause
        | ok entry => exact keep_outcome code h (.inr hd) code.base entry code.notes
  case inr.inr.inr =>
    refine ⟨record, [], ?_, rfl, (Array.append_empty ..).symm, rfl⟩
    exact {
      kept := by rw [List.append_nil]
      encoded := fun hsome => by simp [he] at hsome
      located := fun hd => by simp [hbase, hfinish] at hd
      other := fun _ _ _ => ⟨rfl, rfl⟩ }

end

/-! ## Whole runs -/

/-- **A run over prepared records** pairs each with its outcome, in order. -/
theorem foldl_outcomes : ∀ (records : List Record) (code : ObjectCode),
    (∀ record ∈ records, record.Prepared) →
    ∃ outcomes : List (Record × List Fault),
      List.Forall₂ (fun record outcome => Record.Outcome record outcome.1 outcome.2)
        records outcomes ∧
      (records.foldl pushRecord code).records.toList =
        code.records.toList ++ outcomes.map Prod.fst ∧
      (records.foldl pushRecord code).faults.toList =
        code.faults.toList ++ outcomes.flatMap Prod.snd ∧
      (records.foldl pushRecord code).defects = code.defects
  | [], code, _ => ⟨[], .nil, by simp, by simp, rfl⟩
  | record :: records, code, h => by
    rw [List.forall_mem_cons] at h
    obtain ⟨result, added, houtcome, advance⟩ := pushRecord_outcome code h.1
    obtain ⟨outcomes, hall, hrecords, hfaults, hdefects⟩ :=
      foldl_outcomes records (code.pushRecord record) h.2
    refine ⟨(result, added) :: outcomes, .cons houtcome hall, ?_, ?_, ?_⟩
    · rw [List.foldl_cons, hrecords, advance.records, Array.toList_push, List.append_assoc]
      rfl
    · rw [List.foldl_cons, hfaults, advance.faults, Array.toList_append, List.append_assoc]
      rfl
    · rw [List.foldl_cons, hdefects, advance.defects]

/-- **The second run over a layout**, with or without faults and under any symbol table, has no
defect. Each record gets its outcome, and the faults of the run are those that the records got, in
their order. -/
theorem ofProgram_outcomes (mode : Mode) (lines : List Text) (before symbols : SymbolTable) :
    (ofProgram (Layout.ofLines mode lines before).program symbols).defects = #[] ∧
      ∃ outcomes : List (Record × List Fault),
        List.Forall₂ (fun record outcome => Record.Outcome record outcome.1 outcome.2)
          (Layout.ofLines mode lines before).program.records outcomes ∧
        (ofProgram (Layout.ofLines mode lines before).program symbols).records.toList =
          outcomes.map Prod.fst ∧
        (ofProgram (Layout.ofLines mode lines before).program symbols).faults.toList =
          outcomes.flatMap Prod.snd := by
  obtain ⟨outcomes, hall, hrecords, hfaults, hdefects⟩ :=
    foldl_outcomes (Layout.ofLines mode lines before).program.records
      { name := (Layout.ofLines mode lines before).program.name
        start := (Layout.ofLines mode lines before).program.start
        symbols
        entry := (Layout.ofLines mode lines before).program.entry }
      fun record hrecord => Layout.prepared_record hrecord
  exact ⟨hdefects, outcomes, hall, hrecords, hfaults⟩

/-! ## A line that is too long to count -/

/-- A byte directive with a constant of so many letters. -/
def lettersLine (n : Nat) : Text := Text.ofString "BYTE" ++ Text.blank :: Constant.ofLetters n

theorem fields_lettersLine (n : Nat) :
    (lettersLine n).isComment = false ∧
      (lettersLine n).fields = [Text.ofString "BYTE", Constant.ofLetters n] := by
  -- `List.all` is evaluated byte by byte, where a quantifier would range over all bytes
  have hvisible {t : Text} (h : t.all (fun b => 0x21 ≤ b.toNat ∧ b.toNat < 0x7F) = true) :
      ∀ b ∈ t, 0x21 ≤ b.toNat ∧ b.toNat < 0x7F := by
    simpa using h
  have hfirst : Text.IsWord (Text.ofString "BYTE") := ⟨by decide, hvisible (by decide)⟩
  have hsecond : Text.IsWord (Constant.ofLetters n) := by
    refine ⟨List.append_ne_nil_of_right_ne_nil _ (by decide), fun b hb => ?_⟩
    have hparts : b ∈ Text.ofString "C'" ∨ b ∈ List.replicate n 0x41 ∨ b ∈ Text.ofString "'" := by
      simpa [Constant.ofLetters, or_assoc] using hb
    rcases hparts with hletter | hcontent | hquote
    · exact hvisible (by decide) b hletter
    · rw [List.eq_of_mem_replicate hcontent]
      decide
    · exact hvisible (by decide) b hquote
  exact ⟨Text.isComment_pair hfirst hsecond (by decide), Text.fields_pair hfirst hsecond⟩

/-- The record of such a line with the given object bytes, if the count of the letters is 0. -/
def lettersRecord (n : Nat) (object : Text) : Record :=
  { line := 1
    source := lettersLine n
    content := .directive .byte
    statement := { mnemonic := Text.ofString "BYTE", operand := Constant.ofLetters n }
    address := 0
    width := 0
    object }

section
variable {n : Nat} (hn : 0 < n) (hwidth : UInt32.ofNat n = 0)
include hn hwidth

theorem records_lettersLine :
    (Layout.ofLines .sic [lettersLine n]).program.records = [lettersRecord n []] := by
  obtain ⟨hcomment, hfields⟩ := fields_lettersLine n
  have hextent := Extent.ofByteOperand_ofLetters hn
  rw [hwidth] at hextent
  have hkeyword : Directive.ofKeyword? (Text.ofString "BYTE") = some .byte := by decide
  have hlimit : ¬ Mode.sic.memorySize < 0 := by decide
  simp [Layout.ofLines, Layout.pushLines, Layout.pushLine, Layout.nextRecord, Layout.program,
    hcomment, hfields, Statement.ofFields, Statement.maxFields, Layout.pushStatement, hkeyword,
    Layout.pushStorage, Layout.defineLabel, Layout.extentOf, hextent, Layout.statementFault?,
    hlimit, Layout.push, lettersRecord]

theorem ofProgram_lettersLine (symbols : SymbolTable) :
    (ofProgram (Layout.ofLines .sic [lettersLine n]).program symbols).records =
      #[lettersRecord n (List.replicate n 0x41)] := by
  have hdata := Operand.byteConstant?_ofLetters hn
  rw [ofProgram, records_lettersLine hn hwidth]
  simp [pushRecord, encode, lettersRecord, Operand.resolve, hdata, Operand.toLiteral,
    Instruction.encode, instruction, keep]

end

/-- A byte directive with `2 ^ 32` letters has as many object bytes and no fault, and its width
is 0. -/
theorem letters_not_counted :
    let layout := Layout.ofLines .sic [lettersLine (2 ^ 32)]
    ∃ record, (ofProgram layout.program layout.symbols).records = #[record] ∧
      record.content = .directive .byte ∧ record.faults = [] ∧ record.object.length = 2 ^ 32 ∧
        record.width.toNat = 0 :=
  ⟨_, ofProgram_lettersLine (by decide) (by decide) _, rfl, rfl, List.length_replicate, rfl⟩

end ObjectCode

end SicXe
