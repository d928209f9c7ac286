import SicXe.Proofs.LayoutRun

/-!
# Programs of the base machine on the extended machine

A program that is laid out for the base machine without a fault is laid out for the extended machine
without a fault too, and in the same way.

* `Record.raised`: a record of the base machine as the extended machine has it. Only the format of an
  instruction changes.
* `Mode.opcode?_raised`, `startAddress?_raised`, `Extent.ofReservation_mono`: the places where the
  layout asks for the machine. What the base machine accepts, the extended machine accepts with the
  same outcome.
* `Raised`, `Raised.pushLine`: the layouts for both machines go side by side as long as the one for
  the base machine has no fault.
* `ofLines_upward`: so do the layouts of whole programs.
-/

namespace SicXe

/-! ## Records of the base machine as the extended machine has them -/

/-- An instruction of the base machine as the extended machine has it. -/
def Opcode.raised (opcode : Opcode) : Opcode := { opcode with format := .three }

/-- What a line of the base machine is on the extended machine. -/
def Content.raised : Content → Content
  | .instruction opcode => .instruction opcode.raised
  | content => content

/-- A record of the base machine as the extended machine has it. -/
def Record.raised (record : Record) : Record := { record with content := record.content.raised }

/-! ## Where the machine matters -/

/-- **The directories agree**: an instruction of the base machine is one of format 3 on the extended
machine, with the same mnemonic and code. -/
theorem Mode.opcode?_raised {mnemonic : Text} {opcode : Opcode}
    (h : Mode.sic.opcode? mnemonic = some opcode) :
    opcode.format = .sic ∧ Mode.xe.opcode? mnemonic = some opcode.raised := by
  have htable : ∀ entry ∈ Opcode.table, entry.2 = true →
      entry.1.format = .three ∧ Mode.xe.plainOpcode? entry.1.mnemonic = some entry.1 := by
    decide +kernel
  -- no mnemonic with a plus sign is one of the base machine
  have hplain : Mode.sic.plainOpcode? mnemonic = some opcode := by
    rcases Option.or_eq_some_iff.1 h with h | ⟨-, h⟩
    · exact h
    · cases h
  obtain ⟨entry, hentry, rfl⟩ := List.mem_map.1 (List.mem_of_find?_eq_some hplain)
  obtain ⟨hmem, hshared⟩ := List.mem_filter.1 hentry
  obtain ⟨hformat, hfound⟩ := htable entry hmem hshared
  have hmnemonic : entry.1.mnemonic = mnemonic := by simpa using List.find?_some hplain
  have hraised : Opcode.raised { entry.1 with format := .sic } = entry.1 := by
    rw [Opcode.raised, ← hformat]
  refine ⟨rfl, ?_⟩
  rw [Mode.opcode?, hraised, ← hmnemonic, hfound]
  rfl

theorem Mode.memorySize_mono : Mode.sic.memorySize ≤ Mode.xe.memorySize := by decide

/-- Storage that fits into a memory fits into a larger one. -/
theorem Extent.ofReservation_mono {memory memory' : UInt32} (hle : memory ≤ memory') {unit : Nat}
    {operand : Text} (h : (ofReservation memory unit operand).flaw = none) :
    ofReservation memory' unit operand = ofReservation memory unit operand := by
  unfold ofReservation at h ⊢
  cases hcount : Numeral.decodeCount operand with
  | error flaw => rfl
  | ok count =>
    simp only [hcount] at h ⊢
    by_cases hneg : count < 0
    · simp [hneg]
    · have hfits : ¬ memory.toNat < count.toInt.toNat * unit := by
        intro hlarge
        rw [if_neg hneg, if_pos hlarge] at h
        cases h
      have hfits' : ¬ memory'.toNat < count.toInt.toNat * unit := by
        have := UInt32.le_iff_toNat_le.1 hle
        omega
      rw [if_neg hneg, if_neg hneg, if_neg hfits, if_neg hfits']

namespace Layout

theorem startAddress?_raised {operand : Text} {start : UInt32}
    (h : startAddress? .sic operand = some start) : startAddress? .xe operand = some start := by
  unfold startAddress? at h ⊢
  cases hdecode : Numeral.decodeAddress operand with
  | error flaw => simp [hdecode] at h
  | ok address =>
    simp only [hdecode, Option.ite_none_right_eq_some, Option.some.injEq] at h ⊢
    obtain ⟨hlt, rfl⟩ := h
    exact ⟨UInt32.lt_of_lt_of_le hlt Mode.memorySize_mono, rfl⟩

/-- A statement that the base machine knows, with an operand without a flaw, takes up the same on
the extended machine. -/
theorem extentOf_raised {statement : Statement} {directive : Option Directive}
    (hknown : (extentOf .sic statement directive).1 ≠ .unknown)
    (hflaw : (extentOf .sic statement directive).2.flaw = none) :
    extentOf .xe statement directive =
      ((extentOf .sic statement directive).1.raised, (extentOf .sic statement directive).2) := by
  cases directive with
  | some directive =>
    cases directive with
    | reserveBytes =>
      exact congrArg (Prod.mk _) (Extent.ofReservation_mono Mode.memorySize_mono hflaw)
    | reserveWords =>
      exact congrArg (Prod.mk _) (Extent.ofReservation_mono Mode.memorySize_mono hflaw)
    | start => rfl
    | finish => rfl
    | byte => rfl
    | word => rfl
    | base => rfl
  | none =>
    simp only [extentOf] at hknown ⊢
    cases hopcode : Mode.sic.opcode? statement.mnemonic with
    | none => simp [hopcode] at hknown
    | some opcode =>
      obtain ⟨hformat, hraised⟩ := Mode.opcode?_raised hopcode
      simp only [hraised, Content.raised, Opcode.raised, hformat]
      rfl

theorem contentOf_format {line : Text} {opcode : Opcode}
    (h : contentOf .sic line = .instruction opcode) : opcode.format = .sic :=
  (Mode.opcode?_raised (opcode_contentOf h).2).1

/-! ## Lines without a fault -/

section
variable {layout layout' : Layout} {line : Text}

theorem lineFaults_storage (h : line.definesLabel = true) :
    layout.lineFaults line = [] ↔
      (defineLabel layout.symbols (Statement.ofLine line).label layout.counter).2 = false ∧
        (extentAt layout.mode line).1 ≠ .unknown ∧ (extentAt layout.mode line).2.flaw = none ∧
        layout.exceeds line = false := by
  have hs := Text.isStatement_of_definesLabel h
  obtain ⟨hc, hf⟩ := Text.isStatement_iff.1 hs
  obtain ⟨h1, h2, h3⟩ := (Text.definesLabel_iff hs).1 h
  have hcontent : (layout.storageBase line).content = (extentAt layout.mode line).1 := rfl
  have hfault : statementFault? (layout.storageBase line) (extentAt layout.mode line).2 = none ↔
      (extentAt layout.mode line).1 ≠ .unknown ∧ (extentAt layout.mode line).2.flaw = none := by
    unfold statementFault?
    rw [hcontent]
    by_cases hu : (extentAt layout.mode line).1 = .unknown <;> simp [hu]
  have hlist : layout.lineFaults line = (layout.storageRecord line).faults := by
    simp [lineFaults, hc, Nat.not_lt.2 hf, h1, h2, h3]
  rw [hlist, storageRecord]
  simp only [List.append_eq_nil_iff, Option.toList_eq_nil_iff, hfault, ite_eq_right_iff,
    List.cons_ne_nil, imp_false, Bool.not_eq_true, and_assoc]

theorem lineFaults_start (h : line.isDirective .start = true) :
    layout.lineFaults line = [] ↔ layout.started = false ∧
      (startAddress? layout.mode (Statement.ofLine line).operand).isSome = true := by
  obtain ⟨hc, hf⟩ := Text.isStatement_iff.1 (Text.isStatement_of_isDirective h)
  cases hs : layout.started <;>
    simp [lineFaults, hc, Nat.not_lt.2 hf, h, hs, Option.isSome_iff_ne_none]

theorem lineFaults_overfull (hc : line.isComment = false)
    (hf : Statement.maxFields < line.fields.length) : layout.lineFaults line ≠ [] := by
  simp [lineFaults, hc, hf]

/-- Comments, the end of a program and the announcement of the base register have no faults. -/
theorem lineFaults_quiet (h : line.isComment = true ∨ line.isDirective .finish = true ∨
    line.isDirective .base = true) : layout.lineFaults line = [] := by
  rcases h with h | h | h
  · simp [lineFaults, h]
  · obtain ⟨hc, hf⟩ := Text.isStatement_iff.1 (Text.isStatement_of_isDirective h)
    have h1 := Text.isDirective_eq_false h (show Directive.finish ≠ .start by decide)
    simp [lineFaults, hc, Nat.not_lt.2 hf, h1, h]
  · obtain ⟨hc, hf⟩ := Text.isStatement_iff.1 (Text.isStatement_of_isDirective h)
    have h1 := Text.isDirective_eq_false h (show Directive.base ≠ .start by decide)
    simp [lineFaults, hc, Nat.not_lt.2 hf, h1, h]

/-! ## The layouts side by side -/

/-- A layout without a fault for the base machine, and the one for the extended machine. -/
structure Raised (layout layout' : Layout) : Prop where
  base : layout.mode = .sic
  extended : layout'.mode = .xe
  name : layout'.name = layout.name
  start : layout'.start = layout.start
  counter : layout'.counter = layout.counter
  entryLabel : layout'.entryLabel = layout.entryLabel
  started : layout'.started = layout.started
  finished : layout'.finished = layout.finished
  small : layout.oversized = false
  oversized : layout'.oversized = layout.oversized
  symbols : layout'.symbols = layout.symbols
  records : layout'.records.toList = layout.records.toList.map Record.raised
  faultless : layout'.faults = #[]

/-- What both layouts make of a line without a fault for the base machine. -/
structure RaisedLine (layout layout' : Layout) (line : Text) : Prop where
  faultless : layout'.lineFaults line = []
  content : contentOf .xe line = (contentOf .sic line).raised
  width : widthOf .xe line = widthOf .sic line
  begins : layout'.begins line = layout.begins line
  start : layout.begins line = true →
    startAddress? .xe (Statement.ofLine line).operand =
      startAddress? .sic (Statement.ofLine line).operand
  small : (line.definesLabel && layout.exceeds line) = false
  small' : (line.definesLabel && layout'.exceeds line) = false

/-- A line that takes up no storage and does not begin a program. -/
private theorem raisedLine_quiet (h : Raised layout layout')
    (hkind : line.isComment = true ∨ line.isDirective .finish = true ∨
      line.isDirective .base = true)
    (hcontent : contentOf .xe line = (contentOf .sic line).raised)
    (hlabel : line.definesLabel = false) (hstart : line.isDirective .start = false) :
    RaisedLine layout layout' line :=
  { faultless := lineFaults_quiet hkind
    content := hcontent
    width := by simp [widthOf, hlabel]
    begins := by rw [begins, begins, h.started]
    start := fun hb => by simp [begins, hstart] at hb
    small := by simp [hlabel]
    small' := by simp [hlabel] }

private theorem raisedLine_start (h : Raised layout layout')
    (hline : line.isDirective .start = true) (hfree : layout.lineFaults line = []) :
    RaisedLine layout layout' line := by
  obtain ⟨hstarted, hsome⟩ := (lineFaults_start hline).1 hfree
  rw [h.base] at hsome
  obtain ⟨start, hstart⟩ := Option.isSome_iff_exists.1 hsome
  have hstart' := startAddress?_raised hstart
  have hlabel : line.definesLabel = false := definesLabel_directive hline (by simp)
  have hcontent (mode : Mode) : contentOf mode line = .directive .start :=
    contentOf_directive hline (by simp)
  refine ⟨?_, ?_, ?_, ?_, ?_, ?_, ?_⟩
  · rw [lineFaults_start hline, h.started, h.extended, hstart']
    exact ⟨hstarted, rfl⟩
  · rw [hcontent, hcontent]
    rfl
  · simp [widthOf, hlabel]
  · rw [begins, begins, h.started]
  · intro _
    rw [hstart, hstart']
  · simp [hlabel]
  · simp [hlabel]

/-- Storage: the extended machine has the same labels so far, gives the statement the same extent,
and has more memory to put it in. -/
private theorem raisedLine_storage (h : Raised layout layout')
    (hline : line.definesLabel = true) (hfree : layout.lineFaults line = []) :
    RaisedLine layout layout' line := by
  obtain ⟨hnew, hknown, hflaw, hfits⟩ := (lineFaults_storage hline).1 hfree
  rw [h.base] at hknown hflaw
  have hs := Text.isStatement_of_definesLabel hline
  obtain ⟨hc, hf⟩ := Text.isStatement_iff.1 hs
  have hstart := ((Text.definesLabel_iff hs).1 hline).1
  have hextent : extentAt .xe line =
      ((extentAt .sic line).1.raised, (extentAt .sic line).2) := extentOf_raised hknown hflaw
  have hwidth : (extentAt .xe line).2 = (extentAt .sic line).2 := by rw [hextent]
  have hcounter : ¬ Mode.sic.memorySize < layout.counter + (extentAt .sic line).2.width := by
    intro hlarge
    simp [exceeds, h.base, h.small, hlarge] at hfits
  have hfits' : layout'.exceeds line = false := by
    have hlarge : ¬ Mode.xe.memorySize < layout.counter + (extentAt .sic line).2.width :=
      fun hlt => hcounter (UInt32.lt_of_le_of_lt Mode.memorySize_mono hlt)
    simp [exceeds, h.extended, h.counter, hwidth, hlarge]
  have hknown' : (extentAt .xe line).1 ≠ .unknown := by
    rw [hextent]
    cases hcontent : (extentAt .sic line).1 with
    | unknown => exact absurd hcontent hknown
    | _ => simp [Content.raised]
  refine ⟨?_, ?_, ?_, ?_, ?_, ?_, ?_⟩
  · rw [lineFaults_storage hline, h.symbols, h.counter, h.extended, hwidth]
    exact ⟨hnew, hknown', hflaw, hfits'⟩
  · simp [contentOf, hc, Nat.not_lt.2 hf, hextent]
  · simp [widthOf, hline, hwidth]
  · rw [begins, begins, h.started]
  · intro hb
    simp [begins, hstart] at hb
  · simp [hfits]
  · simp [hfits']

/-- **A line without a fault for the base machine** has none for the extended machine, and both make
the same of it. -/
theorem raisedLine (h : Raised layout layout') (hfree : layout.lineFaults line = []) :
    RaisedLine layout layout' line := by
  rcases Text.line_cases line with hc | ⟨hc, hf⟩ | hline | hline | hline | hline
  · have hs : line.isStatement = false := by simp [Text.isStatement, hc]
    exact raisedLine_quiet h (.inl hc) (by simp [contentOf, hc, Content.raised])
      (Text.definesLabel_of_not_isStatement hs) (Text.isDirective_of_not_isStatement hs _)
  · exact absurd hfree (lineFaults_overfull hc hf)
  · exact raisedLine_start h hline hfree
  · have hcontent (mode : Mode) : contentOf mode line = .directive .finish :=
      contentOf_directive hline (by simp)
    exact raisedLine_quiet h (.inr (.inl hline)) (by rw [hcontent, hcontent]; rfl)
      (definesLabel_directive hline (by simp)) (Text.isDirective_eq_false hline (by decide))
  · have hcontent (mode : Mode) : contentOf mode line = .directive .base :=
      contentOf_directive hline (by simp)
    exact raisedLine_quiet h (.inr (.inr hline)) (by rw [hcontent, hcontent]; rfl)
      (definesLabel_directive hline (by simp)) (Text.isDirective_eq_false hline (by decide))
  · exact raisedLine_storage h hline hfree

/-- **One line**: the layouts stay side by side if the one for the base machine finds no fault. -/
theorem Raised.pushLine (h : Raised layout layout') (hfree : layout.lineFaults line = []) :
    Raised (layout.pushLine line) (layout'.pushLine line) := by
  obtain ⟨record, step⟩ := layout.pushLine_step line
  obtain ⟨record', step'⟩ := layout'.pushLine_step line
  have hline := raisedLine h hfree
  have hstart : (layout'.pushLine line).start = (layout.pushLine line).start := by
    rw [step.start, step'.start, hline.begins, h.base, h.extended]
    split
    case isTrue hb => rw [hline.start hb]
    case isFalse => exact h.start
  have haddress : record'.address = record.address := by
    rw [step.address, step'.address, hline.begins, hstart, h.counter]
  have hwidth : record'.width = record.width := by
    rw [step.width, step'.width, h.base, h.extended, hline.width]
  have hcount : layout'.records.size = layout.records.size := by
    rw [← Array.length_toList, ← Array.length_toList, h.records, List.length_map]
  have hrecord : record' = record.raised := by
    have hcontent : record'.content = record.content.raised := by
      rw [step.content, step'.content, h.base, h.extended, hline.content]
    have hfaults : record'.faults = record.faults := by
      rw [step.found, step'.found, hline.faultless, hfree]
    have hnumber : record'.line = record.line := by rw [step.number, step'.number, hcount]
    have hsource : record'.source = record.source := by rw [step.source, step'.source]
    have hstatement : record'.statement = record.statement := by
      rw [step.statement, step'.statement]
    have hobject : record'.object = record.object := by rw [step.object, step'.object]
    rw [Record.raised, ← hcontent, ← hfaults, ← hnumber, ← hsource, ← hstatement, ← hobject,
      ← haddress, ← hwidth]
  exact {
    start := hstart
    base := step.mode.trans h.base
    extended := step'.mode.trans h.extended
    name := by rw [step.name, step'.name, hline.begins, h.name]
    counter := by rw [step.counter, step'.counter, haddress, hwidth]
    entryLabel := by rw [step.entryLabel, step'.entryLabel, h.entryLabel]
    started := by rw [step.started, step'.started, h.started]
    finished := by rw [step.finished, step'.finished, h.finished]
    small := by rw [step.oversized, h.small, hline.small, Bool.or_false]
    oversized := by rw [step.oversized, step'.oversized, h.oversized, hline.small, hline.small']
    symbols := by rw [step.symbols, step'.symbols, h.symbols, h.counter]
    records := by
      rw [step.records, step'.records, Array.toList_push, Array.toList_push, h.records, hrecord,
        List.map_append, List.map_singleton]
    faultless := by
      rw [step'.faults, h.faultless, step'.found, hline.faultless]
      rfl }

end

/-! ## Whole programs -/

theorem faults_pushLine {layout : Layout} {line : Text} (h : (layout.pushLine line).faults = #[]) :
    layout.faults = #[] ∧ layout.lineFaults line = [] := by
  obtain ⟨record, step⟩ := layout.pushLine_step line
  rw [step.faults, step.found, Array.append_eq_empty_iff] at h
  exact ⟨h.1, by simpa using h.2⟩

theorem faults_pushLines : ∀ (lines : List Text) {layout : Layout},
    (layout.pushLines lines).faults = #[] → layout.faults = #[]
  | [], _, h => h
  | line :: lines, layout, h => by
    rw [pushLines] at h
    split at h
    · exact h
    · exact (faults_pushLine (faults_pushLines lines h)).1

theorem Raised.pushLines : ∀ (lines : List Text) {layout layout' : Layout},
    Raised layout layout' → (layout.pushLines lines).faults = #[] →
      Raised (layout.pushLines lines) (layout'.pushLines lines)
  | [], _, _, h, _ => h
  | line :: lines, layout, layout', h, hfree => by
    cases hfinished : layout.finished with
    | true => rwa [pushLines_of_finished hfinished,
        pushLines_of_finished (h.finished.trans hfinished)]
    | false =>
      rw [Layout.pushLines, hfinished, if_neg Bool.false_ne_true] at hfree
      have hline := (faults_pushLine (faults_pushLines lines hfree)).2
      rw [Layout.pushLines, Layout.pushLines, h.finished, hfinished, if_neg Bool.false_ne_true,
        if_neg Bool.false_ne_true]
      exact Raised.pushLines lines (h.pushLine hline) hfree

/-- What the extended machine has in common with the base machine: the layout is that of the base
machine, with the instructions in format 3. -/
structure Upward (layout layout' : Layout) : Prop where
  errorFree : layout'.program.errorFree = true
  symbols : layout'.symbols = layout.symbols
  name : layout'.program.name = layout.program.name
  start : layout'.program.start = layout.program.start
  length : layout'.program.length = layout.program.length
  entry : layout'.program.entry = layout.program.entry
  entryLabel : layout'.program.entryLabel = layout.program.entryLabel
  records : layout'.program.records = layout.program.records.map Record.raised
  formats : ∀ record ∈ layout.program.records, ∀ opcode,
    record.content = .instruction opcode → opcode.format = .sic

/-- **Upward compatibility**: a program without a fault for the base machine has none for the
extended machine. Whatever labels the symbol tables held before, both layouts have the same labels,
the same place and the same records, but for the format of their instructions. -/
theorem ofLines_upward (lines : List Text) (before before' : SymbolTable)
    (h : (ofLines .sic lines before).program.errorFree = true) :
    Upward (ofLines .sic lines before) (ofLines .xe lines before') := by
  have hempty : Raised { mode := .sic, symbols := before.cleared }
      { mode := .xe, symbols := before'.cleared } := by
    constructor <;> simp [SymbolTable.cleared_eq_empty]
  have hraised : Raised (ofLines .sic lines before) (ofLines .xe lines before') :=
    hempty.pushLines lines (Array.isEmpty_iff.1 h)
  refine {
    errorFree := Array.isEmpty_iff.2 hraised.faultless
    symbols := hraised.symbols
    name := hraised.name
    start := hraised.start
    length := ?length
    entry := hraised.start
    entryLabel := hraised.entryLabel
    records := hraised.records
    formats := ?formats }
  case length =>
    change (ofLines .xe lines before').counter - (ofLines .xe lines before').start = _
    rw [hraised.counter, hraised.start]
    rfl
  case formats =>
    intro record hrecord opcode hopcode
    obtain ⟨k, hk⟩ := List.mem_iff_getElem?.1 hrecord
    obtain ⟨-, step⟩ := record_step hk
    rw [step.content, (ofLines_laid .sic (lines.take k) before).machine] at hopcode
    exact contentOf_format hopcode

/-- A program with instructions, a constant and storage, in a table that held other labels. -/
theorem ofLines_upward_copy :
    (ofLines .sic ["COPY START 1000", "FIRST LDA FIVE", "RSUB", "FIVE WORD 5", "BUF RESW 9",
        "END FIRST"] (.ofList [("FIVE", 7)])).program.errorFree = true ∧
      (ofLines .xe ["COPY START 1000", "FIRST LDA FIVE", "RSUB", "FIVE WORD 5", "BUF RESW 9",
        "END FIRST"]).program.records.map (·.content) =
        [.directive .start, .instruction ⟨"LDA", 0x00, .three⟩, .instruction ⟨"RSUB", 0x4C, .three⟩,
          .directive .word, .directive .reserveWords, .directive .finish] := by
  have hfree : (ofLines .sic ["COPY START 1000", "FIRST LDA FIVE", "RSUB", "FIVE WORD 5",
      "BUF RESW 9", "END FIRST"] (.ofList [("FIVE", 7)])).program.errorFree = true := by
    decide +kernel
  refine ⟨hfree, ?_⟩
  rw [(ofLines_upward _ _ .empty hfree).records]
  decide +kernel

end Layout

end SicXe
