import Mathlib.Data.List.DropRight
import SicXe.Command.Assemble
import SicXe.Proofs.AssemblyRun
import SicXe.Proofs.Findings

/-!
# Faults and where they are reported

Both runs collect faults twice, on the record and in one list of the assembly, and a report looks
the line of a fault up again by its number.

* `Text.columnOf_bounds`: a column lies in its line.
* `Layout.Finds`, `Layout.mem_lineFaults`, `ObjectCode.mem_found`: every fault is one of its record,
  at one of the record's fields.
* `Assembly.faults_eq_flatMap`: the list of the assembly is that of the records, in order.
* `Program.sourceLine_record`, `Fault.report_of_liesIn`: the line is found, and the fault is marked
  in it.
* `Assembly.faults_reported`: all of this for every source that can be read.
-/

namespace SicXe

/-! ## Columns -/

namespace Text

theorem offsetFrom_lt {needle : Text} (hne : needle ≠ []) {t : Text} {passed n : Nat}
    (h : offsetFrom passed needle t = some n) : passed ≤ n ∧ n < passed + t.length := by
  induction t generalizing passed with
  | nil => simp [offsetFrom, hne] at h
  | cons b t ih =>
    rw [offsetFrom] at h
    split at h
    · cases h
      simp
    · have := ih h
      rw [List.length_cons]
      omega

theorem columnOf_bounds {line : Text} (hne : line ≠ []) (field : Text) :
    1 ≤ line.columnOf field ∧ line.columnOf field ≤ line.length := by
  have hpos := List.length_pos_iff.2 hne
  unfold columnOf
  split
  · omega
  · rename_i hfield
    cases ho : offset? field line with
    | none => exact ⟨Nat.le_refl 1, hpos⟩
    | some n =>
      have := offsetFrom_lt hfield ho
      simp only [Option.elim_some]
      omega

theorem ne_nil_of_isComment {line : Text} (h : line.isComment = false) : line ≠ [] := by
  rintro rfl
  cases h

theorem trimReturns_trimReturns (line : Text) :
    line.trimReturns.trimReturns = line.trimReturns := by
  simp [trimReturns, trimEnd, List.dropWhile_idempotent]

end Text

/-- Whether a cause can be seen only with the finished labels. -/
def Cause.isLate : Cause → Bool
  | .unknownLabel _ | .outOfReach _ => true
  | _ => false

/-- A fault lies in the line of a record. -/
structure Fault.LiesIn (fault : Fault) (record : Record) : Prop where
  line : fault.position.line = record.line
  column : 1 ≤ fault.position.column ∧ fault.position.column ≤ record.source.length

theorem Record.faultAt_liesIn {record : Record} (h : record.source ≠ []) (field : Text)
    (cause : Cause) : (record.faultAt field cause).LiesIn record := by
  obtain ⟨hlow, hhigh⟩ := Text.columnOf_bounds h field
  refine ⟨rfl, ?_⟩
  simp only [Record.faultAt]
  omega

/-! ## The faults of a line -/

namespace Layout

/-- What a layout can find in a line, and the field at which it is reported. A fault of the whole
line counts as one at an empty field. -/
inductive Finds (line : Text) : (field : Text) → Cause → Prop where
  | overfull (count : Int) : Finds line [] (.tooManyFields Statement.maxFields count)
  | oversized (limit size : UInt32) : Finds line [] (.oversized limit size)
  | duplicate (hline : line.isStatement = true) (hlabel : (Statement.ofLine line).label ≠ []) :
      Finds line (Statement.ofLine line).label (.duplicateLabel (Statement.ofLine line).label)
  | unknown (hline : line.isStatement = true) :
      Finds line (Statement.ofLine line).mnemonic
        (.unknownMnemonic (Statement.ofLine line).mnemonic)
  | misplaced (hline : line.isStatement = true) :
      Finds line (Statement.ofLine line).mnemonic
        (.misplacedDirective (Statement.ofLine line).mnemonic)
  | flawed (hline : line.isStatement = true) (flaw : OperandFlaw) :
      Finds line (Statement.ofLine line).operand
        (.invalidOperand (Statement.ofLine line).operand flaw)

theorem Finds.isLate {line field : Text} {cause : Cause} (h : Finds line field cause) :
    cause.isLate = false := by
  cases h <;> rfl

theorem mem_storageRecord {layout : Layout} {line : Text} (hline : line.isStatement = true)
    {fault : Fault} (h : fault ∈ (layout.storageRecord line).faults) :
    ∃ field cause, fault = (layout.nextRecord line).faultAt field cause ∧ Finds line field cause := by
  simp only [storageRecord, List.mem_append, Option.mem_toList] at h
  rcases h with (h | h) | h
  · split at h
    case isTrue hduplicate =>
      refine ⟨_, _, List.mem_singleton.1 h, .duplicate hline fun hnil => ?_⟩
      -- an empty label is never there already
      rw [defineLabel, if_pos hnil] at hduplicate
      cases hduplicate
    case isFalse => cases h
  · simp only [statementFault?] at h
    split at h
    · cases h
      exact ⟨_, _, rfl, .unknown hline⟩
    · obtain ⟨flaw, -, rfl⟩ := Option.map_eq_some_iff.1 h
      exact ⟨_, _, rfl, .flawed hline flaw⟩
  · split at h
    · exact ⟨[], _, List.mem_singleton.1 h, .oversized _ _⟩
    · cases h

/-- **The faults of a line**, each with the field at which it is reported. -/
theorem mem_lineFaults {layout : Layout} {line : Text} {fault : Fault}
    (h : fault ∈ layout.lineFaults line) :
    line.isComment = false ∧ ∃ field cause,
      fault = (layout.nextRecord line).faultAt field cause ∧ Finds line field cause := by
  unfold lineFaults at h
  split at h
  · cases h
  rename_i hcomment
  rw [Bool.not_eq_true] at hcomment
  refine ⟨hcomment, ?_⟩
  split at h
  · exact ⟨[], _, List.mem_singleton.1 h, .overfull _⟩
  rename_i hfew
  have hline : line.isStatement = true := Text.isStatement_iff.2 ⟨hcomment, Nat.le_of_not_lt hfew⟩
  split at h
  · split at h
    · exact ⟨_, _, List.mem_singleton.1 h, .misplaced hline⟩
    · split at h
      · cases h
      · exact ⟨_, _, List.mem_singleton.1 h, .flawed hline _⟩
  split at h
  · cases h
  · exact mem_storageRecord hline h

variable {mode : Mode} {lines : List Text} {symbols : SymbolTable} {record : Record} {fault : Fault}

theorem fault_of_record (h : record ∈ (ofLines mode lines symbols).records.toList)
    (hfault : fault ∈ record.faults) : fault.LiesIn record ∧ fault.cause.isLate = false := by
  obtain ⟨k, hk⟩ := List.mem_iff_getElem?.1 h
  obtain ⟨-, step⟩ := record_step hk
  rw [step.found] at hfault
  obtain ⟨hcomment, field, cause, rfl, hfinds⟩ := mem_lineFaults hfault
  refine ⟨?_, hfinds.isLate⟩
  have hlies : (record.faultAt field cause).LiesIn record :=
    Record.faultAt_liesIn (Text.ne_nil_of_isComment hcomment) field cause
  rwa [Record.faultAt, step.number] at hlies

end Layout

/-! ## The faults of the second run -/

namespace ObjectCode

theorem mem_found {code : ObjectCode} {record : Record} {fault : Fault}
    (h : fault ∈ code.found record) :
    record.content ≠ .comment ∧ ∃ cause, fault = record.faultAt record.statement.operand cause := by
  rw [found, Option.mem_toList] at h
  obtain ⟨cause, hcause, rfl⟩ := Option.map_eq_some_iff.1 h
  refine ⟨fun hcomment => ?_, cause, rfl⟩
  simp [finding?, hcomment, Content.encoding?, locates] at hcause

/-- A run over records without faults reports those that it puts on the records, in order. -/
theorem faults_foldl {init : ObjectCode} (hrecords : init.records = #[])
    (hfaults : init.faults = #[]) (records : List Record)
    (h : ∀ record ∈ records, record.faults = []) :
    (records.foldl pushRecord init).faults.toList =
      (records.foldl pushRecord init).records.toList.flatMap Record.faults := by
  refine foldl_induction (P := fun done code => (∀ record ∈ done, record.faults = []) →
    code.faults.toList = code.records.toList.flatMap Record.faults) ?_ records [] ?_ h
  · intro done code record result next ih step hdone
    obtain ⟨found, hresult, hnext⟩ := step.faults
    have hcode := ih fun r hr => hdone r (List.mem_append_left _ hr)
    rw [hdone record (by simp), List.nil_append] at hresult
    rw [hnext, step.records, Array.toList_append, hcode, Array.toList_push, List.flatMap_append,
      List.flatMap_singleton, hresult]
  · intro _
    rw [hrecords, hfaults]
    rfl

end ObjectCode

/-! ## Assemblies -/

namespace Assembly

variable {mode : Mode} {lines : List Text} {record : Record} {fault : Fault}

theorem ofLines_of_faulty (h : (ofLines mode lines).program.errorFree = false) :
    ofLines mode lines =
      { mode
        program := (Layout.ofLines mode lines).program
        symbols := (Layout.ofLines mode lines).symbols
        faults := (Layout.ofLines mode lines).faults.toList } := by
  rw [errorFree_ofLines] at h
  exact if_neg (by rw [h]; exact Bool.false_ne_true)

theorem faults_of_errorFree (h : (ofLines mode lines).program.errorFree = true) :
    ∀ record ∈ (Layout.ofLines mode lines).records.toList, record.faults = [] := by
  intro record hrecord
  rw [errorFree_ofLines] at h
  obtain ⟨k, hk⟩ := List.mem_iff_getElem?.1 hrecord
  exact congrArg Record.faults (bare_layout h hk).symm

/-- **The faults of an assembly** are those of its records, in order. -/
theorem faults_eq_flatMap (mode : Mode) (lines : List Text) :
    (ofLines mode lines).faults = (ofLines mode lines).program.records.flatMap Record.faults := by
  cases h : (ofLines mode lines).program.errorFree with
  | false =>
    rw [ofLines_of_faulty h]
    exact Layout.faults_ofLines mode lines .empty
  | true =>
    have hlayout : (Layout.ofLines mode lines).faults.toList = [] := by
      rw [Layout.faults_ofLines, List.flatMap_eq_nil_iff]
      exact faults_of_errorFree h
    rw [ofLines_eq h]
    dsimp only
    rw [hlayout, List.nil_append]
    exact ObjectCode.faults_foldl rfl rfl _ (faults_of_errorFree h)

/-- A record of an assembly is that of the layout, less what the second run found. -/
theorem bare_mem_layout {k : Nat} (h : (ofLines mode lines).program.records[k]? = some record) :
    ∃ laid, (Layout.ofLines mode lines).records.toList[k]? = some laid ∧
      record.bare = laid.bare := by
  cases hfree : (ofLines mode lines).program.errorFree with
  | false =>
    rw [ofLines_of_faulty hfree] at h
    exact ⟨record, h, rfl⟩
  | true => exact ⟨record.bare, (record_outcome hfree h).1, rfl⟩

theorem fault_liesIn (h : record ∈ (ofLines mode lines).program.records)
    (hfault : fault ∈ record.faults) : fault.LiesIn record := by
  cases hfree : (ofLines mode lines).program.errorFree with
  | false =>
    rw [ofLines_of_faulty hfree] at h
    exact (Layout.fault_of_record h hfault).1
  | true =>
    obtain ⟨k, hk⟩ := List.mem_iff_getElem?.1 h
    rw [ofLines_eq hfree] at hk
    obtain ⟨laid, hlaid, rfl⟩ := ObjectCode.record_settled rfl hk
    rw [ObjectCode.settled, faults_of_errorFree hfree laid (List.mem_of_getElem? hlaid),
      List.nil_append] at hfault
    obtain ⟨hcontent, cause, rfl⟩ := ObjectCode.mem_found hfault
    -- a record that is no comment has a line with a statement
    obtain ⟨-, step⟩ := Layout.record_step hlaid
    have hcomment : laid.source.isComment = false := by
      rw [← Bool.not_eq_true]
      intro hc
      rw [step.content, Layout.contentOf, if_pos hc] at hcontent
      exact hcontent rfl
    obtain ⟨hline, hcolumn⟩ := Record.faultAt_liesIn (Text.ne_nil_of_isComment hcomment)
      laid.statement.operand cause
    exact ⟨hline, hcolumn⟩

/-- A program whose layout has a fault has no object bytes and no late faults. -/
theorem early_of_faulty (h : (ofLines mode lines).program.errorFree = false) :
    (∀ record ∈ (ofLines mode lines).program.records, record.object = []) ∧
      ∀ fault ∈ (ofLines mode lines).faults, fault.cause.isLate = false := by
  constructor
  · intro record hrecord
    rw [ofLines_of_faulty h] at hrecord
    obtain ⟨k, hk⟩ := List.mem_iff_getElem?.1 hrecord
    obtain ⟨-, step⟩ := Layout.record_step hk
    exact step.object
  · intro fault hfault
    rw [faults_eq_flatMap, List.mem_flatMap, ofLines_of_faulty h] at hfault
    obtain ⟨record, hrecord, hfault⟩ := hfault
    exact (Layout.fault_of_record hrecord hfault).2

end Assembly

/-! ## Reports -/

/-- The report of a fault that is marked in a line. -/
def Fault.marked (fault : Fault) (line : Text) (colored : Bool) : Text :=
  let mark := underline line (fault.position.column - 1).toNat
  fault.message ++ Text.lineFeed :: line ++
    Text.lineFeed :: if colored then Console.red mark else mark

theorem Fault.report_of_liesIn {fault : Fault} {record : Record} (h : fault.LiesIn record)
    (colored : Bool) : fault.report record.source colored = fault.marked record.source colored := by
  have := h.column
  exact if_neg (by omega)

/-- The line of a record is found by its number, if the records are numbered from one on. -/
theorem Program.sourceLine_record {program : Program}
    (hnumber : ∀ (k : Nat) record, program.records[k]? = some record → record.line = k + 1)
    {record : Record} (h : record ∈ program.records) :
    program.sourceLine record.line = record.source := by
  obtain ⟨k, hk⟩ := List.mem_iff_getElem?.1 h
  obtain ⟨hlt, hget⟩ := List.getElem?_eq_some_iff.1 hk
  have hfind : program.records.find? (fun r => (r.line : Int) = record.line) = some record := by
    refine List.find?_eq_some_iff_getElem.2 ⟨by simp, k, hlt, hget, fun j hj => ?_⟩
    have hline := hnumber j _ (List.getElem?_eq_getElem (Nat.lt_trans hj hlt))
    have := hnumber k record hk
    simp only [Bool.not_eq_true', decide_eq_false_iff_not]
    omega
  rw [sourceLine, hfind]
  rfl

namespace Assembly

variable {mode : Mode} {input : Input}

theorem number_ofLines {lines : List Text} {k : Nat} {record : Record}
    (h : (ofLines mode lines).program.records[k]? = some record) :
    record.line = k + 1 ∧ lines[k]? = some record.source := by
  obtain ⟨laid, hlaid, hbare⟩ := bare_mem_layout h
  have hline : record.line = laid.line := (congrArg Record.line hbare :)
  have hsource : record.source = laid.source := (congrArg Record.source hbare :)
  rw [hline, hsource]
  exact ⟨Layout.number_record hlaid, (Layout.record_step hlaid).1⟩

/-- What an assembly says about the faults of its source. -/
structure Reported (mode : Mode) (input : Input) (assembly : Assembly) : Prop where
  listed : assembly.faults = assembly.program.records.flatMap Record.faults
  errorFree : assembly.program.errorFree = true ↔
    (Layout.ofLines mode input.lines.lines).faults = #[]
  /-- With a fault of the layout there is no second run. -/
  early : assembly.program.errorFree = false →
    (∀ record ∈ assembly.program.records, record.object = []) ∧
      ∀ fault ∈ assembly.faults, fault.cause.isLate = false
  located : ∀ record ∈ assembly.program.records, ∀ fault ∈ record.faults, fault.LiesIn record
  /-- Every report has the line of its record, and a mark in it. -/
  shown : ∀ colored, assembly.faultReports colored =
    assembly.program.records.flatMap fun record =>
      record.faults.map fun fault => fault.marked record.source colored

/-- **Every fault is listed once, lies in the line of its record and is shown there.** -/
theorem faults_reported {assembly : Assembly} (h : ofInput mode input = .ok assembly) :
    Reported mode input assembly := by
  obtain rfl := ofInput_eq_ok h
  refine ⟨faults_eq_flatMap .., ?errorFree, early_of_faulty,
    fun _ hrecord _ => fault_liesIn hrecord, ?shown⟩
  case errorFree =>
    rw [errorFree_ofLines]
    exact Array.isEmpty_iff
  case shown =>
    intro colored
    rw [faultReports, faults_eq_flatMap, List.map_flatMap]
    refine List.flatMap_congr fun record hrecord => List.map_congr_left fun fault hfault => ?_
    have hlies := fault_liesIn hrecord hfault
    have hsource : (ofLines mode input.lines.lines).program.sourceLine record.line =
        record.source :=
      Program.sourceLine_record (fun k r hr => (number_ofLines hr).1) hrecord
    -- the lines of an input have no carriage returns left at their ends
    have htrim : record.source.trimReturns = record.source := by
      obtain ⟨k, hk⟩ := List.mem_iff_getElem?.1 hrecord
      have hmem := List.mem_of_getElem? (number_ofLines hk).2
      obtain ⟨raw, -, hraw⟩ := List.mem_map.1 hmem
      rw [← hraw, Text.trimReturns_trimReturns]
    rw [hlies.line, hsource]
    exact (congrArg (fault.report · colored) htrim).trans (Fault.report_of_liesIn hlies colored)

/-- A statement with two faults at once, behind a comment. -/
theorem faults_reported_twice :
    ∃ assembly, ofInput .xe { text := ". two\nA WORD 1\r\nA BYTE 300\n" } = .ok assembly ∧
      assembly.program.errorFree = false ∧
      assembly.faultReports false =
        ["03:01: Duplicate symbol 'A'\nA BYTE 300\n^",
         "03:08: Invalid operand '300': value does not fit in a byte\nA BYTE 300\n       ^~~"] := by
  have hassembly : ofInput .xe { text := ". two\nA WORD 1\r\nA BYTE 300\n" } =
      .ok (ofLines .xe [". two", "A WORD 1", "A BYTE 300"]) := rfl
  refine ⟨_, hassembly, by decide +kernel, ?_⟩
  rw [(faults_reported hassembly).shown]
  decide +kernel

end Assembly

end SicXe
