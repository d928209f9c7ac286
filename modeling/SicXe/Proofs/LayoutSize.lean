import Mathlib.Data.Nat.Find
import SicXe.Proofs.AssemblyRun

/-!
# Programs that leave the memory

The counter of a layout has 32 bits and may wrap any number of times once the program has left the
memory. The report of that is exact all the same, for lines shorter than `2 ^ 31` bytes:

* `Program.reach`: where a record ends in exact numbers.
* `Exceeded`, `oversized_take`: the layout is marked as too large if and only if the exact sum is
  beyond the memory.
* `marks_iff_first`, `filter_of_first`: the first record that reaches beyond the memory has the
  fault of a program that is too large, with its exact end.
* `ofLines_measured`: there is such a fault if and only if a record reaches beyond the memory; it is
  the only one, and tells how far its record reaches. Without any fault the records lie in memory.
-/

namespace SicXe

/-- Whether a fault says that the program is too large. -/
def Fault.isOversized (fault : Fault) : Bool :=
  match fault.cause with
  | .oversized _ _ => true
  | _ => false

/-- The end of the record with the given index, in exact numbers: the start of the program and the
widths of the records up to this one. -/
def Program.reach (program : Program) (k : Nat) : Nat :=
  program.start.toNat + ((program.records.take (k + 1)).map (·.width.toNat)).sum

namespace Layout

variable {mode : Mode} {lines : List Text} {symbols : SymbolTable}

/-! ## The mark of a layout that is too large -/

/-- A layout that is marked as too large is beyond the memory, and has a statement. -/
def Exceeded (layout : Layout) : Prop :=
  layout.oversized = true → layout.started = true ∧
    layout.mode.memorySize.toNat < layout.start.toNat + widths layout.records.toList

theorem exceeded_step {layout : Layout} {line : Text} {record : Record} (sized : Sized layout)
    (h : Exceeded layout) (step : Step layout line record (layout.pushLine line)) :
    Exceeded (layout.pushLine line) := by
  intro hover
  rw [step.oversized, Bool.or_eq_true, Bool.and_eq_true] at hover
  have hwidths : widths (layout.pushLine line).records.toList =
      widths layout.records.toList + record.width.toNat := by
    rw [step.records, Array.toList_push, widths_append, widths_singleton]
  rcases hover with hover | ⟨hd, hexc⟩
  · obtain ⟨hstarted, hbeyond⟩ := h hover
    have hb : layout.begins line = false := by simp [begins, hstarted]
    have hstart := step.start
    rw [hb, if_neg Bool.false_ne_true] at hstart
    refine ⟨by simp [step.started, hstarted], ?_⟩
    rw [step.mode, hwidths, hstart]
    omega
  · have hs := Text.isStatement_of_definesLabel hd
    have hb : layout.begins line = false := by simp [begins, ((Text.definesLabel_iff hs).1 hd).1]
    have hstart := step.start
    rw [hb, if_neg Bool.false_ne_true] at hstart
    simp only [exceeds, Bool.and_eq_true, decide_eq_true_eq, Bool.not_eq_true'] at hexc
    obtain ⟨hcounter, -⟩ := sized.exact hexc.2
    refine ⟨by simp [step.started, Text.isComment_of_isStatement hs], ?_⟩
    rw [step.mode, hwidths, hstart, step.width, widthOf, hd, if_pos rfl]
    -- a sum that wraps would be even smaller
    have hlt := hexc.1
    rw [UInt32.lt_iff_toNat_lt, UInt32.toNat_add] at hlt
    have hmod := Nat.mod_le
      (layout.counter.toNat + (extentAt layout.mode line).2.width.toNat) (2 ^ 32)
    omega

theorem ofLines_exceeded (mode : Mode) (symbols : SymbolTable)
    (hlen : ∀ line ∈ lines, line.length < 2 ^ 31) : Exceeded (ofLines mode lines symbols) := by
  have hend : ∀ line ∈ toEnd lines, line.length < 2 ^ 31 :=
    fun line hl => hlen line (List.mem_of_mem_take hl)
  refine (ofLines_induction (P := fun done layout => (∀ line ∈ done, line.length < 2 ^ 31) →
    Laid mode done layout ∧ Sized layout ∧ Exceeded layout) ?_ ?_ lines symbols hend).2.2
  · exact fun _ => ⟨laid_nil mode, ⟨nofun, fun _ => ⟨rfl, Nat.zero_le _⟩⟩, nofun⟩
  · intro done layout line record _ ih step hd
    obtain ⟨laid, sized, exceeded⟩ := ih fun l hl => hd l (by simp [hl])
    exact ⟨laid_step laid step, sized_step laid sized (hd line (by simp)) step,
      exceeded_step sized exceeded step⟩

theorem startOf_lt (mode : Mode) (lines : List Text) :
    (startOf mode lines).toNat < mode.memorySize.toNat := by
  have hpos : (0 : UInt32).toNat < mode.memorySize.toNat := by cases mode <;> decide
  unfold startOf
  cases (beginning? lines).bind (lines[·]?) with
  | none => exact hpos
  | some line =>
    rw [Option.elim_some]
    cases ha : startAddress? mode (Statement.ofLine line).operand with
    | none => exact hpos
    | some start => exact startAddress?_lt ha

/-- From the first statement on, the start is that of the program. -/
theorem start_take {k : Nat} (hk : k ≤ (toEnd lines).length)
    (hs : (ofLines mode (lines.take k) symbols).started = true) :
    (ofLines mode (lines.take k) symbols).start = (ofLines mode lines symbols).start := by
  have laid := laid_take mode symbols hk
  rw [laid.started] at hs
  rw [laid.start, start_ofLines, ← startOf_append_of_started hs (lines.drop k),
    List.take_append_drop]

section
variable (hlen : ∀ line ∈ lines, line.length < 2 ^ 31)
include hlen

/-- **The mark is exact**: after each line the layout is marked as too large if and only if the
start and the widths so far are beyond the memory. -/
theorem oversized_take {k : Nat} (hk : k ≤ (toEnd lines).length) :
    (ofLines mode (lines.take k) symbols).oversized = true ↔
      mode.memorySize.toNat < (ofLines mode lines symbols).start.toNat +
        widths ((ofLines mode lines symbols).records.toList.take k) := by
  have hlen' : ∀ line ∈ lines.take k, line.length < 2 ^ 31 :=
    fun line hl => hlen line (List.mem_of_mem_take hl)
  have laid := laid_take mode symbols hk
  have sized := ofLines_sized mode symbols hlen'
  have hrecords := @records_take mode lines symbols k hk
  constructor
  · intro hover
    obtain ⟨hstarted, hbeyond⟩ := ofLines_exceeded mode symbols hlen' hover
    rwa [laid.machine, start_take hk hstarted, hrecords] at hbeyond
  · intro hbeyond
    rw [← Bool.not_eq_false]
    intro hover
    obtain ⟨hexact, hfits⟩ := sized.exact hover
    rw [laid.machine] at hfits
    rw [hrecords] at hexact
    cases hs : (ofLines mode (lines.take k) symbols).started with
    | true =>
      rw [start_take hk hs] at hexact
      omega
    | false =>
      -- comments only: nothing is laid out, and the start is in memory
      have hidle := laid.idle hs
      have hstart := startOf_lt mode lines
      rw [hrecords] at hidle
      rw [start_ofLines] at hbeyond
      omega

end

/-! ## The fault of a record -/

theorem filter_statementFault? (record : Record) (extent : Extent) :
    (statementFault? record extent).toList.filter Fault.isOversized = [] := by
  rw [List.filter_eq_nil_iff]
  intro fault hfault
  rw [Option.mem_toList] at hfault
  simp only [statementFault?] at hfault
  split at hfault
  · cases hfault
    exact Bool.false_ne_true
  · obtain ⟨flaw, -, rfl⟩ := Option.map_eq_some_iff.1 hfault
    exact Bool.false_ne_true

/-- A line is reported as too large if and only if it takes up storage and is the first to exceed
the memory. -/
theorem filter_lineFaults (layout : Layout) (line : Text) :
    (layout.lineFaults line).filter Fault.isOversized =
      if line.definesLabel && layout.exceeds line then
        [⟨⟨layout.records.size + 1, 1⟩, .oversized layout.mode.memorySize
          (layout.counter + (extentAt layout.mode line).2.width)⟩]
      else [] := by
  rcases Text.line_cases line with hc | ⟨hc, hf⟩ | h | h | h | h
  · have hs : line.isStatement = false := by simp [Text.isStatement, hc]
    simp [lineFaults, hc, Text.definesLabel_of_not_isStatement hs]
  · have hs : line.isStatement = false := by simp [Text.isStatement, hc, hf]
    simp [lineFaults, hc, hf, Text.definesLabel_of_not_isStatement hs, Fault.isOversized]
  · obtain ⟨hc, hm⟩ := Text.isStatement_iff.1 (Text.isStatement_of_isDirective h)
    have hd : line.definesLabel = false := by simp [Text.definesLabel, h]
    simp only [lineFaults, hc, Nat.not_lt.2 hm, h, hd, Bool.false_eq_true, ↓reduceIte,
      Bool.false_and]
    split
    · rfl
    · split <;> rfl
  · obtain ⟨hc, hm⟩ := Text.isStatement_iff.1 (Text.isStatement_of_isDirective h)
    have h1 := Text.isDirective_eq_false h (show Directive.finish ≠ .start by decide)
    have hd : line.definesLabel = false := by simp [Text.definesLabel, h]
    simp [lineFaults, hc, Nat.not_lt.2 hm, h1, h, hd]
  · obtain ⟨hc, hm⟩ := Text.isStatement_iff.1 (Text.isStatement_of_isDirective h)
    have h1 := Text.isDirective_eq_false h (show Directive.base ≠ .start by decide)
    have hd : line.definesLabel = false := by simp [Text.definesLabel, h]
    simp [lineFaults, hc, Nat.not_lt.2 hm, h1, h, hd]
  · have hs := Text.isStatement_of_definesLabel h
    obtain ⟨hc, hm⟩ := Text.isStatement_iff.1 hs
    obtain ⟨h1, h2, h3⟩ := (Text.definesLabel_iff hs).1 h
    have hfaults : layout.lineFaults line = (layout.storageRecord line).faults := by
      simp [lineFaults, hc, Nat.not_lt.2 hm, h1, h2, h3]
    rw [hfaults, storageRecord]
    dsimp only
    rw [List.filter_append, List.filter_append, filter_statementFault?, h, Bool.true_and]
    have hlabel (duplicate : Bool) (label : Text) :
        (if duplicate then [(layout.storageBase line).faultAt label (.duplicateLabel label)]
          else []).filter Fault.isOversized = [] := by
      cases duplicate <;> rfl
    rw [hlabel, List.nil_append, List.nil_append]
    split <;> rfl

section
variable {k : Nat} {record : Record}
  (h : (ofLines mode lines symbols).records.toList[k]? = some record)
  (hlen : ∀ line ∈ lines, line.length < 2 ^ 31)
include h hlen

/-- A storage record that is the first to reach beyond the memory is reported with its exact end. -/
theorem toNat_counter_of_first (hd : record.source.definesLabel = true)
    (hover : (ofLines mode (lines.take k) symbols).oversized = false) :
    ((ofLines mode (lines.take k) symbols).counter +
        (extentAt mode record.source).2.width).toNat =
      (ofLines mode lines symbols).program.reach k := by
  have hk := lt_length_toEnd h
  obtain ⟨hline, step⟩ := record_step h
  have laid := laid_take mode symbols (Nat.le_of_lt hk)
  have next := laid_take mode symbols (Nat.succ_le_of_lt hk)
  have hs := Text.isStatement_of_definesLabel hd
  have hb : (ofLines mode (lines.take k) symbols).begins record.source = false := by
    simp [begins, ((Text.definesLabel_iff hs).1 hd).1]
  -- the counter behind the record is the exact end modulo `2 ^ 32`
  have hcounter := next.counter
  have hstarted : (ofLines mode (lines.take (k + 1)) symbols).started = true := by
    simp [step.started, Text.isComment_of_isStatement hs]
  rw [step.counter, step.address, hb, if_neg Bool.false_ne_true, step.width, widthOf, hd,
    if_pos rfl, laid.machine, start_take (Nat.succ_le_of_lt hk) hstarted,
    records_take (Nat.succ_le_of_lt hk)] at hcounter
  -- and the end is below that, since the record before it ends in memory
  have hbefore : ¬ mode.memorySize.toNat < (ofLines mode lines symbols).start.toNat +
      widths ((ofLines mode lines symbols).records.toList.take k) := by
    rw [← oversized_take hlen (Nat.le_of_lt hk), hover]
    exact Bool.false_ne_true
  have hwidth := width_le mode record.source
  have hlength := hlen record.source (List.mem_of_getElem? hline)
  have hmemory := mode.memorySize_le
  have hrecord : record.width = (extentAt mode record.source).2.width := by
    rw [step.width, widthOf, hd, if_pos rfl, laid.machine]
  rw [widths_take_succ h, hrecord] at hcounter
  rw [hcounter]
  change _ = (ofLines mode lines symbols).start.toNat +
    widths ((ofLines mode lines symbols).records.toList.take (k + 1))
  rw [widths_take_succ h, hrecord, Nat.mod_eq_of_lt (by omega)]

/-- The mark is set by the first record that ends beyond the memory. -/
theorem marks_iff_first :
    (record.source.definesLabel &&
        (ofLines mode (lines.take k) symbols).exceeds record.source) = true ↔
      (ofLines mode lines symbols).start.toNat +
          widths ((ofLines mode lines symbols).records.toList.take k) ≤ mode.memorySize.toNat ∧
        mode.memorySize.toNat < (ofLines mode lines symbols).program.reach k := by
  have hk := lt_length_toEnd h
  obtain ⟨-, step⟩ := record_step h
  have hbefore := @oversized_take mode lines symbols hlen k (Nat.le_of_lt hk)
  have hbehind := @oversized_take mode lines symbols hlen (k + 1) (Nat.succ_le_of_lt hk)
  change _ ↔ _ < (ofLines mode lines symbols).program.reach k at hbehind
  rw [← Nat.not_lt, ← hbefore, ← hbehind, step.oversized]
  cases hover : (ofLines mode (lines.take k) symbols).oversized with
  | true => simp [exceeds, hover]
  | false => simp

/-- **The first record that ends beyond the memory** is reported, with its exact end. -/
theorem filter_of_first
    (hfirst : (ofLines mode lines symbols).start.toNat +
        widths ((ofLines mode lines symbols).records.toList.take k) ≤ mode.memorySize.toNat ∧
      mode.memorySize.toNat < (ofLines mode lines symbols).program.reach k) :
    ∃ size : UInt32, size.toNat = (ofLines mode lines symbols).program.reach k ∧
      record.faults.filter Fault.isOversized =
        [⟨⟨k + 1, 1⟩, .oversized mode.memorySize size⟩] := by
  have hk := lt_length_toEnd h
  obtain ⟨-, step⟩ := record_step h
  have laid := laid_take mode symbols (Nat.le_of_lt hk)
  have hmark := (marks_iff_first h hlen).2 hfirst
  have hover : (ofLines mode (lines.take k) symbols).oversized = false := by
    rw [← Bool.not_eq_true, oversized_take hlen (Nat.le_of_lt hk)]
    exact Nat.not_lt.2 hfirst.1
  have hsize : (ofLines mode (lines.take k) symbols).records.size = k :=
    Nat.succ.inj (step.number.symm.trans (number_record h))
  refine ⟨_, toNat_counter_of_first h hlen (Bool.and_eq_true_iff.1 hmark).1 hover, ?_⟩
  rw [step.found, filter_lineFaults, hmark, if_pos rfl, hsize, laid.machine]

theorem filter_of_not_first
    (hfirst : ¬ ((ofLines mode lines symbols).start.toNat +
        widths ((ofLines mode lines symbols).records.toList.take k) ≤ mode.memorySize.toNat ∧
      mode.memorySize.toNat < (ofLines mode lines symbols).program.reach k)) :
    record.faults.filter Fault.isOversized = [] := by
  obtain ⟨-, step⟩ := record_step h
  rw [step.found, filter_lineFaults, if_neg (mt (marks_iff_first h hlen).1 hfirst)]

end

/-! ## Layouts and the memory -/

/-- A program in memory. Records lie behind each other between its start and its end, and no end of
a record wraps. -/
structure Placed (mode : Mode) (program : Program) : Prop where
  fits : program.start.toNat + program.length.toNat ≤ mode.memorySize.toNat
  length : program.length.toNat = (program.records.map (·.width.toNat)).sum
  counter : ∀ record ∈ program.records,
    (record.address + record.width).toNat = record.address.toNat + record.width.toNat
  inside : ∀ record ∈ program.records, ∀ a, record.address.toNat ≤ a →
    a < record.address.toNat + record.width.toNat →
    program.start.toNat ≤ a ∧ a < program.start.toNat + program.length.toNat
  behind : ∀ (j k : Nat) before record, program.records[j]? = some before →
    program.records[k]? = some record → j < k →
    before.address.toNat + before.width.toNat ≤ record.address.toNat

theorem placed_of_errorFree (hlen : ∀ line ∈ lines, line.length < 2 ^ 31)
    (hfree : (ofLines mode lines symbols).program.errorFree = true) :
    Placed mode (ofLines mode lines symbols).program := by
  obtain ⟨hexact, hfits⟩ := total_exact hfree hlen
  have hlength := length_exact hfree hlen
  have hprogram : (ofLines mode lines symbols).program.start.toNat +
      (ofLines mode lines symbols).program.length.toNat ≤ mode.memorySize.toNat := by
    change (ofLines mode lines symbols).start.toNat + _ ≤ _
    omega
  have hmemory := mode.memorySize_le
  refine ⟨hprogram, hlength, ?counter, ?inside, ?behind⟩
  case counter =>
    intro record hrecord
    obtain ⟨k, hk⟩ := List.mem_iff_getElem?.1 hrecord
    have hlt := record.address.toNat_lt
    rw [UInt32.toNat_add]
    by_cases hw : 0 < record.width.toNat
    · obtain ⟨-, hhigh⟩ := record_inside hfree hlen hk hw
      change _ ≤ (ofLines mode lines symbols).program.start.toNat + _ at hhigh
      exact Nat.mod_eq_of_lt (by omega)
    · exact Nat.mod_eq_of_lt (by omega)
  case inside =>
    intro record hrecord a hlow hhigh
    obtain ⟨k, hk⟩ := List.mem_iff_getElem?.1 hrecord
    have hinside := record_inside hfree hlen hk (by omega)
    exact ⟨Nat.le_trans hinside.1 hlow, Nat.lt_of_lt_of_le hhigh hinside.2⟩
  case behind =>
    intro j k before record hj hk hjk
    exact record_disjoint hfree hlen hk hj hjk

/-- How a layout reports that its program is too large. -/
structure Measured (mode : Mode) (layout : Layout) : Prop where
  /-- It does so if and only if a record ends beyond the memory. -/
  reported : (∃ fault ∈ layout.faults.toList, fault.isOversized = true) ↔
    ∃ k < layout.program.records.length, mode.memorySize.toNat < layout.program.reach k
  /-- Then it does so once, with the exact end of the first such record, which has the fault. -/
  once : ∀ k < layout.program.records.length, mode.memorySize.toNat < layout.program.reach k →
    (∀ j < k, layout.program.reach j ≤ mode.memorySize.toNat) →
    ∃ size : UInt32, size.toNat = layout.program.reach k ∧
      layout.faults.toList.filter Fault.isOversized =
        [⟨⟨k + 1, 1⟩, .oversized mode.memorySize size⟩] ∧
      ∀ (j : Nat) record, layout.program.records[j]? = some record →
        record.faults.filter Fault.isOversized =
          if j = k then [⟨⟨k + 1, 1⟩, .oversized mode.memorySize size⟩] else []
  placed : layout.program.errorFree = true → Placed mode layout.program

section
variable (mode) (symbols)

/-- The records before the first that ends beyond the memory end in memory. -/
theorem before_first_le {k : Nat}
    (h : ∀ j < k, (ofLines mode lines symbols).program.reach j ≤ mode.memorySize.toNat) :
    (ofLines mode lines symbols).start.toNat +
      widths ((ofLines mode lines symbols).records.toList.take k) ≤ mode.memorySize.toNat := by
  cases k with
  | zero =>
    rw [start_ofLines]
    exact Nat.le_of_lt (startOf_lt mode lines)
  | succ k => exact h k (Nat.lt_succ_self k)

/-- Only the first record that ends beyond the memory is reported. -/
theorem once_of_first (hlen : ∀ line ∈ lines, line.length < 2 ^ 31) {k : Nat} {first : Record}
    (hk : (ofLines mode lines symbols).records.toList[k]? = some first)
    (hbeyond : mode.memorySize.toNat < (ofLines mode lines symbols).program.reach k)
    (hfirst : ∀ j < k, (ofLines mode lines symbols).program.reach j ≤ mode.memorySize.toNat) :
    ∃ size : UInt32, size.toNat = (ofLines mode lines symbols).program.reach k ∧
      ∀ (j : Nat) record, (ofLines mode lines symbols).records.toList[j]? = some record →
        record.faults.filter Fault.isOversized =
          if j = k then [⟨⟨k + 1, 1⟩, .oversized mode.memorySize size⟩] else [] := by
  obtain ⟨size, hsize, hfilter⟩ :=
    filter_of_first hk hlen ⟨before_first_le mode symbols hfirst, hbeyond⟩
  refine ⟨size, hsize, fun j record hj => ?_⟩
  rcases Nat.lt_trichotomy j k with hjk | rfl | hjk
  · rw [if_neg (Nat.ne_of_lt hjk)]
    exact filter_of_not_first hj hlen fun hover => Nat.not_lt.2 (hfirst j hjk) hover.2
  · cases hk.symm.trans hj
    rw [hfilter, if_pos rfl]
  · -- the records before this one are beyond the memory already
    rw [if_neg (Nat.ne_of_gt hjk)]
    refine filter_of_not_first hj hlen fun hover => ?_
    have hmono := widths_take_mono (ofLines mode lines symbols).records.toList
      (Nat.succ_le_of_lt hjk)
    have hreach : (ofLines mode lines symbols).program.reach k ≤ mode.memorySize.toNat :=
      Nat.le_trans (Nat.add_le_add_left hmono _) hover.1
    omega

/-- The report of one record is the only one of the layout. -/
theorem filter_faults {k : Nat} {first : Record} {fault : Fault}
    (hk : (ofLines mode lines symbols).records.toList[k]? = some first)
    (hrecords : ∀ (j : Nat) record, (ofLines mode lines symbols).records.toList[j]? = some record →
      record.faults.filter Fault.isOversized = if j = k then [fault] else []) :
    (ofLines mode lines symbols).faults.toList.filter Fault.isOversized = [fault] := by
  have hbefore : ((ofLines mode lines symbols).records.toList.take k).flatMap
      (fun record => record.faults.filter Fault.isOversized) = [] := by
    refine List.flatMap_eq_nil_iff.2 fun record hrecord => ?_
    obtain ⟨j, hj⟩ := List.mem_iff_getElem?.1 hrecord
    rw [List.getElem?_take] at hj
    split at hj
    case isTrue hjk => rw [hrecords j record hj, if_neg (Nat.ne_of_lt hjk)]
    case isFalse => cases hj
  have hbehind : ((ofLines mode lines symbols).records.toList.drop (k + 1)).flatMap
      (fun record => record.faults.filter Fault.isOversized) = [] := by
    refine List.flatMap_eq_nil_iff.2 fun record hrecord => ?_
    obtain ⟨j, hj⟩ := List.mem_iff_getElem?.1 hrecord
    rw [List.getElem?_drop] at hj
    rw [hrecords _ record hj, if_neg (by omega)]
  have hdrop := List.drop_eq_getElem_cons (List.getElem?_eq_some_iff.1 hk).1
  rw [(List.getElem?_eq_some_iff.1 hk).2] at hdrop
  rw [faults_ofLines, List.filter_flatMap,
    ← List.take_append_drop k (ofLines mode lines symbols).records.toList, List.flatMap_append,
    hbefore, List.nil_append, hdrop, List.flatMap_cons, hbehind, List.append_nil,
    hrecords k first hk, if_pos rfl]

/-- **A program that leaves the memory is reported exactly once**, where it first does so and with
its exact end there; and a program without a fault lies in memory. -/
theorem ofLines_measured (hlen : ∀ line ∈ lines, line.length < 2 ^ 31) :
    Measured mode (ofLines mode lines symbols) := by
  have hfaults := faults_ofLines mode lines symbols
  refine ⟨⟨?found, ?report⟩, ?once, placed_of_errorFree hlen⟩
  case found =>
    rintro ⟨fault, hfault, hover⟩
    rw [hfaults, List.mem_flatMap] at hfault
    obtain ⟨record, hrecord, hmem⟩ := hfault
    obtain ⟨k, hk⟩ := List.mem_iff_getElem?.1 hrecord
    refine ⟨k, (List.getElem?_eq_some_iff.1 hk).1, Decidable.byContradiction fun hle => ?_⟩
    have hnone := filter_of_not_first hk hlen fun h => hle h.2
    exact List.filter_eq_nil_iff.1 hnone fault hmem hover
  case report =>
    intro hbeyond
    obtain ⟨hk, hreach⟩ := Nat.find_spec hbeyond
    have hfirst : ∀ j < Nat.find hbeyond,
        (ofLines mode lines symbols).program.reach j ≤ mode.memorySize.toNat := fun j hj =>
      Nat.le_of_not_lt fun hlt => Nat.find_min hbeyond hj ⟨Nat.lt_trans hj hk, hlt⟩
    have hget := List.getElem?_eq_getElem hk
    obtain ⟨size, -, hrecords⟩ := once_of_first mode symbols hlen hget hreach hfirst
    have hfilter := hrecords _ _ hget
    rw [if_pos rfl] at hfilter
    obtain ⟨hmem, hover⟩ := List.mem_filter.1 (hfilter ▸ List.mem_singleton_self _)
    refine ⟨_, ?_, hover⟩
    rw [hfaults, List.mem_flatMap]
    exact ⟨_, List.mem_of_getElem? hget, hmem⟩
  case once =>
    intro k hk hbeyond hfirst
    have hget := List.getElem?_eq_getElem hk
    obtain ⟨size, hsize, hrecords⟩ := once_of_first mode symbols hlen hget hbeyond hfirst
    exact ⟨size, hsize, filter_faults mode symbols hget hrecords, hrecords⟩

/-- The second of three storage records leaves the memory; the third goes on behind it. -/
theorem ofLines_measured_reserved :
    let lines : List Text := ["P START 7FFD", "A WORD 1", "B RESW 10922", "C WORD 2", "END"]
    (∀ line ∈ lines, line.length < 2 ^ 31) ∧ ∃ size : UInt32, size.toNat = 0xFFFE ∧
      (ofLines .sic lines).faults.toList.filter Fault.isOversized =
        [⟨⟨3, 1⟩, .oversized 0x8000 size⟩] := by
  intro lines
  have hlen : ∀ line ∈ lines, line.length < 2 ^ 31 := by decide +kernel
  obtain ⟨size, hsize, hfaults, -⟩ := (ofLines_measured .sic .empty hlen).once 2 (by decide +kernel)
    (by decide +kernel) (by decide +kernel)
  exact ⟨hlen, size, hsize.trans (by decide +kernel), hfaults⟩

end

end Layout

end SicXe
