import Mathlib.Algebra.Order.Ring.Int
import SicXe.Proofs.LayoutStep

/-!
# The layout of a whole program

Notation: `Lₖ` is the layout after the first `k` lines (`Layout.ofLines mode (lines.take k)`).

* `record_step`: the `k`-th record is the one that the step from `Lₖ` to `Lₖ₊₁` makes.
* `Laid`, `ofLines_laid`: the invariant of a run. The counter is the start plus the widths so far,
  modulo `2 ^ 32`; the start is the one of the line that begins the program (`beginning?`), and zero
  without such a line; the symbol table has the labels of the records, each with the address of the
  first record that has it (`definition?`).
* `ofLines_accounts`: addresses, length, labels and misplaced directives of a program, from its
  lines.
-/

namespace SicXe.Layout

variable {mode : Mode} {lines : List Text} {symbols : SymbolTable}

/-! ## The layouts on the way -/

theorem length_toEnd (lines : List Text) :
    (toEnd lines).length =
      (lines.findIdx? (·.isDirective .finish)).elim lines.length (· + 1) := by
  rw [toEnd, List.length_take]
  cases h : lines.findIdx? (·.isDirective .finish) with
  | none => simp
  | some k =>
    obtain ⟨hk, -⟩ := List.findIdx?_eq_some_iff_getElem.1 h
    simp only [Option.elim_some]
    omega

theorem toEnd_take : ∀ {lines : List Text} {k : Nat}, k ≤ (toEnd lines).length →
    toEnd (lines.take k) = lines.take k
  | [], _, _ => by simp [toEnd]
  | _ :: _, 0, _ => by simp [toEnd]
  | line :: lines, k + 1, h => by
    rw [List.take_succ_cons]
    cases he : line.isDirective .finish with
    | true =>
      rw [toEnd_cons_of_finish he, List.length_singleton] at h
      rw [toEnd_cons_of_finish he, show k = 0 by omega, List.take_zero]
    | false =>
      rw [toEnd_cons he, List.length_cons] at h
      rw [toEnd_cons he, toEnd_take (by omega)]

/-- The lines of a program, cut before its end, do not hold its end. -/
theorem finished_take (mode : Mode) (symbols : SymbolTable) {k : Nat}
    (h : k < (toEnd lines).length) :
    (ofLines mode (lines.take k) symbols).finished = false := by
  have hend : (ofLines mode (lines.take k) symbols).finished =
      (toEnd (lines.take k)).any (·.isDirective .finish) := by
    refine ofLines_induction (P := fun done layout =>
      layout.finished = done.any (·.isDirective .finish)) rfl ?_ (lines.take k) symbols
    intro done layout line record _ ih step
    rw [step.finished, ih, List.any_append]
    simp
  rw [hend, toEnd_take (by omega)]
  rw [length_toEnd] at h
  cases hi : lines.findIdx? (·.isDirective .finish) with
  | none =>
    rw [List.findIdx?_eq_none_iff] at hi
    exact List.any_eq_false.2 fun line hl => by simp [hi line (List.mem_of_mem_take hl)]
  | some j =>
    obtain ⟨_, _, hj⟩ := List.findIdx?_eq_some_iff_getElem.1 hi
    simp only [hi, Option.elim_some] at h
    refine List.any_eq_false.2 fun line hl => ?_
    obtain ⟨i, hil, rfl⟩ := List.getElem_of_mem hl
    rw [List.length_take] at hil
    rw [List.getElem_take]
    exact hj i (by omega)

theorem sources_ofLines (mode : Mode) (lines : List Text) (symbols : SymbolTable) :
    (ofLines mode lines symbols).records.toList.map (·.source) = toEnd lines := by
  refine ofLines_induction (P := fun done layout =>
    layout.records.toList.map (·.source) = done) rfl ?_ lines symbols
  intro done layout line record _ ih step
  rw [step.records, Array.toList_push, List.map_append, ih, List.map_singleton, step.source]

theorem length_records (mode : Mode) (lines : List Text) (symbols : SymbolTable) :
    (ofLines mode lines symbols).records.toList.length = (toEnd lines).length := by
  rw [← sources_ofLines mode lines symbols, List.length_map]

/-- Further lines leave the records there are. -/
theorem records_pushLines : ∀ (lines : List Text) (layout : Layout),
    ∃ more, (layout.pushLines lines).records.toList = layout.records.toList ++ more
  | [], layout => ⟨[], by simp [pushLines]⟩
  | line :: lines, layout => by
    cases hf : layout.finished with
    | true => exact ⟨[], by simp [pushLines, hf]⟩
    | false =>
      obtain ⟨record, step⟩ := layout.pushLine_step line
      obtain ⟨more, h⟩ := records_pushLines lines (layout.pushLine line)
      refine ⟨record :: more, ?_⟩
      rw [pushLines, hf, if_neg Bool.false_ne_true, h, step.records, Array.toList_push,
        List.append_assoc, List.singleton_append]

/-- The first `k` records are those of the first `k` lines. -/
theorem records_take {k : Nat} (h : k ≤ (toEnd lines).length) :
    (ofLines mode (lines.take k) symbols).records.toList =
      (ofLines mode lines symbols).records.toList.take k := by
  have hlen : (ofLines mode (lines.take k) symbols).records.toList.length = k := by
    rw [length_records, toEnd_take h, List.length_take]
    have : (toEnd lines).length ≤ lines.length := by
      rw [toEnd]; exact List.length_take_le' ..
    omega
  obtain ⟨more, hm⟩ := records_pushLines (lines.drop k) (ofLines mode (lines.take k) symbols)
  have hsplit : (ofLines mode (lines.take k) symbols).pushLines (lines.drop k) =
      ofLines mode lines symbols := by
    simp only [ofLines]
    rw [← pushLines_append, List.take_append_drop]
  rw [hsplit] at hm
  rw [hm, List.take_left' hlen]

/-- The layout after one more line of the program. -/
theorem ofLines_take_succ {k : Nat} {line : Text} (hl : lines[k]? = some line)
    (h : k < (toEnd lines).length) :
    ofLines mode (lines.take (k + 1)) symbols =
      (ofLines mode (lines.take k) symbols).pushLine line := by
  have hf := finished_take mode symbols h
  rw [ofLines, List.take_add_one, hl, pushLines_append]
  change (ofLines mode (lines.take k) symbols).pushLines [line] = _
  rw [pushLines, hf, if_neg Bool.false_ne_true, pushLines]

/-- **The `k`-th record** is the one that the step after `k` lines makes. -/
theorem record_step {k : Nat} {record : Record}
    (h : (ofLines mode lines symbols).records.toList[k]? = some record) :
    lines[k]? = some record.source ∧
      Step (ofLines mode (lines.take k) symbols) record.source record
        (ofLines mode (lines.take (k + 1)) symbols) := by
  have hk : k < (toEnd lines).length := by
    rw [← length_records mode lines symbols]
    exact (List.getElem?_eq_some_iff.1 h).1
  have hline : lines[k]? = some record.source := by
    have hs := congrArg (·[k]?) (sources_ofLines mode lines symbols)
    simp only [List.getElem?_map, h, Option.map_some, toEnd] at hs
    rw [List.getElem?_take_of_lt (by rw [← length_toEnd]; exact hk)] at hs
    exact hs.symm
  refine ⟨hline, ?_⟩
  obtain ⟨made, step⟩ :=
    (ofLines mode (lines.take k) symbols).pushLine_step record.source
  rw [← ofLines_take_succ hline hk] at step
  -- the record that the step adds is the last of the first `k + 1`
  have hrec := congrArg Array.toList step.records
  rw [records_take (by omega), Array.toList_push, records_take (by omega),
    List.take_add_one, h, Option.toList_some] at hrec
  have hmade := List.append_cancel_left hrec
  rw [List.cons.injEq] at hmade
  rw [← hmade.1] at step
  exact step

/-! ## The invariant of a run -/

/-- The index of the line that begins a program: the first line that is no comment, if it is the
directive that starts a program. -/
def beginning? (lines : List Text) : Option Nat :=
  (lines.findIdx? (!·.isComment)).filter fun k => lines[k]?.any (·.isDirective .start)

/-- The start address that the lines of a program give. -/
def startOf (mode : Mode) (lines : List Text) : UInt32 :=
  ((beginning? lines).bind (lines[·]?)).elim 0 fun line =>
    (startAddress? mode (Statement.ofLine line).operand).getD 0

theorem beginning?_of_idle {done : List Text} (h : done.any (!·.isComment) = false) :
    beginning? done = none := by
  have : done.findIdx? (!·.isComment) = none := by
    rw [List.findIdx?_eq_none_iff]
    exact fun line hl => by simpa using List.any_eq_false.1 h line hl
  simp [beginning?, this]

/-- A line behind comments begins the program if it is the directive for it. -/
theorem beginning?_concat_of_idle {done : List Text} (h : done.any (!·.isComment) = false)
    (line : Text) :
    beginning? (done ++ [line]) =
      if line.isDirective .start then some done.length else none := by
  have hn : done.findIdx? (!·.isComment) = none := by
    rw [List.findIdx?_eq_none_iff]
    exact fun line hl => by simpa using List.any_eq_false.1 h line hl
  rw [beginning?, List.findIdx?_append, hn, Option.none_or, List.findIdx?_singleton]
  cases hd : line.isDirective .start with
  | true =>
    have hc := Text.isComment_of_isStatement (Text.isStatement_of_isDirective hd)
    simp [hc, hd]
  | false => cases line.isComment <;> simp [hd]

/-- A line behind a statement does not begin the program. -/
theorem beginning?_append_of_started {done : List Text} (h : done.any (!·.isComment) = true)
    (more : List Text) : beginning? (done ++ more) = beginning? done := by
  rw [beginning?, beginning?, List.findIdx?_append]
  cases hi : done.findIdx? (!·.isComment) with
  | none =>
    rw [List.findIdx?_eq_none_iff] at hi
    obtain ⟨line, hl, hc⟩ := List.any_eq_true.1 h
    rw [hi line hl] at hc
    cases hc
  | some k =>
    obtain ⟨hk, -⟩ := List.findIdx?_eq_some_iff_getElem.1 hi
    simp only [Option.some_or, Option.filter_some, List.getElem?_append_left hk]

theorem beginning?_lt {k : Nat} (h : beginning? lines = some k) : k < lines.length := by
  obtain ⟨h, -⟩ := Option.filter_eq_some_iff.1 h
  exact (List.findIdx?_eq_some_iff_getElem.1 h).1

/-- The sum of the widths of records. -/
def widths (records : List Record) : Nat := (records.map (·.width.toNat)).sum

@[simp] theorem widths_append (before after : List Record) :
    widths (before ++ after) = widths before + widths after := by
  simp [widths]

@[simp] theorem widths_singleton (record : Record) : widths [record] = record.width.toNat := by
  simp [widths]

/-- The first record with the given label, among those whose label stands for their address. -/
def definition? (records : List Record) (label : Text) : Option Record :=
  if label = [] then none
  else records.find? fun record => record.source.definesLabel && record.statement.label == label

/-- The layout of the lines `done`. -/
structure Laid (mode : Mode) (done : List Text) (layout : Layout) : Prop where
  machine : layout.mode = mode
  started : layout.started = done.any (!·.isComment)
  start : layout.start = startOf mode done
  /-- Comments take up no storage. -/
  idle : layout.started = false → widths layout.records.toList = 0
  counter : layout.counter.toNat =
    (layout.start.toNat + widths layout.records.toList) % 2 ^ 32
  symbols : ∀ label, layout.symbols.get? label =
    (definition? layout.records.toList label).map (·.address)

theorem get?_define? {table : SymbolTable} {label : Text} (h : table.get? label = none)
    (address : UInt32) (name : Text) :
    ∃ next, table.define? label address = some next ∧
      next.get? name = if name = label then some address else table.get? name := by
  refine ⟨{ entries := table.entries ++ [(label, address)] }, by simp [SymbolTable.define?, h], ?_⟩
  rw [SymbolTable.get?, List.find?_append]
  by_cases hn : name = label
  · subst hn
    rw [SymbolTable.get?, Option.map_eq_none_iff] at h
    simp [h]
  · cases hf : table.entries.find? (·.1 == name) <;> simp [SymbolTable.get?, hf, hn, Ne.symm hn]

theorem definition?_concat (records : List Record) (record : Record) (label : Text) :
    definition? (records ++ [record]) label =
      (definition? records label).or
        (if label ≠ [] ∧ record.source.definesLabel ∧ record.statement.label = label then
          some record else none) := by
  unfold definition?
  by_cases hl : label = []
  · simp [hl]
  · simp only [hl, if_false, List.find?_append, List.find?_singleton, Bool.and_eq_true, beq_iff_eq,
      ne_eq, not_false_eq_true, true_and]

/-- A step finds a label of the record before, or else defines it with the record's address. -/
theorem symbols_step {layout next : Layout} {line : Text} {record : Record}
    (step : Step layout line record next)
    (h : ∀ label, layout.symbols.get? label =
      (definition? layout.records.toList label).map (·.address)) (label : Text) :
    next.symbols.get? label = (definition? next.records.toList label).map (·.address) := by
  rw [step.records, Array.toList_push, definition?_concat, step.symbols, step.source]
  cases hd : line.definesLabel with
  | false => simpa using h label
  | true =>
    have hs := Text.isStatement_of_definesLabel hd
    have hc := Text.isComment_of_isStatement hs
    have hb : layout.begins line = false := by
      simp [begins, ((Text.definesLabel_iff hs).1 hd).1]
    have hlabel : record.statement.label = (Statement.ofLine line).label := by
      simp [step.statement, hc]
    have haddress : record.address = layout.counter := by simp [step.address, hb]
    rw [hlabel, if_pos rfl]
    unfold defineLabel
    by_cases he : (Statement.ofLine line).label = []
    · simp only [he, ↓reduceIte]
      rw [h label]
      by_cases hl : label = [] <;> simp [hl, Ne.symm]
    · rw [if_neg he]
      cases hg : layout.symbols.get? (Statement.ofLine line).label with
      | some address =>
        simp only [SymbolTable.define?, hg]
        rw [h label]
        by_cases hl : label = (Statement.ofLine line).label
        · subst hl
          rw [h] at hg
          obtain ⟨first, hf, -⟩ := Option.map_eq_some_iff.1 hg
          simp [hf]
        · simp [Ne.symm hl]
      | none =>
        obtain ⟨table, ht, hget⟩ := get?_define? hg layout.counter label
        simp only [ht, hget]
        by_cases hl : label = (Statement.ofLine line).label
        · subst hl
          rw [h, Option.map_eq_none_iff] at hg
          simp [hg, he, haddress]
        · simp [hl, Ne.symm hl, h label]

/-- Lines behind the one that begins a program do not change its start. -/
theorem startOf_append_of_started {done : List Text} (h : done.any (!·.isComment) = true)
    (more : List Text) : startOf mode (done ++ more) = startOf mode done := by
  rw [startOf, startOf, beginning?_append_of_started h]
  cases hb : beginning? done with
  | none => rfl
  | some k =>
    simp only [Option.bind_some, List.getElem?_append_left (beginning?_lt hb)]

theorem laid_step {done : List Text} {layout : Layout} {line : Text} {record : Record}
    (h : Laid mode done layout) (step : Step layout line record (layout.pushLine line)) :
    Laid mode (done ++ [line]) (layout.pushLine line) := by
  have hstarted : (layout.pushLine line).started = (done ++ [line]).any (!·.isComment) := by
    rw [step.started, h.started, List.any_append]
    simp
  have hrecords : (layout.pushLine line).records.toList = layout.records.toList ++ [record] := by
    rw [step.records, Array.toList_push]
  have hwidth : widths (layout.pushLine line).records.toList =
      widths layout.records.toList + record.width.toNat := by
    rw [hrecords, widths_append, widths_singleton]
  refine ⟨step.mode.trans h.machine, hstarted, ?start, ?idle, ?counter,
    symbols_step step h.symbols⟩
  case start =>
    cases hs : layout.started with
    | true =>
      rw [startOf_append_of_started (h.started ▸ hs), step.start, h.start]
      simp [begins, hs]
    | false =>
      have hidle := h.started.symm.trans hs
      rw [startOf, beginning?_concat_of_idle hidle, step.start, h.machine, h.start, startOf,
        beginning?_of_idle hidle]
      cases hd : line.isDirective .start <;> simp [begins, hs, hd]
  case idle =>
    intro hs
    rw [step.started, Bool.or_eq_false_iff, Bool.not_eq_false'] at hs
    have hn : line.definesLabel = false := by simp [Text.definesLabel, Text.isStatement, hs.2]
    rw [hwidth, h.idle hs.1, step.width, widthOf, hn]
    rfl
  case counter =>
    rw [step.counter, step.address, hwidth, UInt32.toNat_add]
    cases hb : layout.begins line with
    | true =>
      -- only comments stand before the line that begins the program
      have hs : layout.started = false := by simp [begins] at hb; exact hb.1
      simp [h.idle hs]
    | false =>
      have hstart : (layout.pushLine line).start = layout.start := by simp [step.start, hb]
      have := h.counter
      rw [hstart]
      simp only [Bool.false_eq_true, ↓reduceIte]
      omega

theorem laid_nil (mode : Mode) : Laid mode [] { mode } :=
  ⟨rfl, rfl, rfl, fun _ => rfl, rfl, fun label => by
    simp [definition?, SymbolTable.get?, SymbolTable.empty]⟩

/-- **The invariant of a run** holds of every program. -/
theorem ofLines_laid (mode : Mode) (lines : List Text) (symbols : SymbolTable) :
    Laid mode (toEnd lines) (ofLines mode lines symbols) :=
  ofLines_induction (laid_nil mode) (fun _ _ _ _ _ h step => laid_step h step) lines symbols

/-! ## Lines and the lines up to the end -/

/-- The line that begins a program is among the first `n` lines, or they have none that does. -/
theorem beginning?_take (lines : List Text) (n : Nat) :
    beginning? (lines.take n) = (beginning? lines).filter (· < n) := by
  have happ := List.take_append_drop n lines
  cases hs : (lines.take n).any (!·.isComment) with
  | true =>
    have hb := beginning?_append_of_started hs (lines.drop n)
    rw [happ] at hb
    rw [hb]
    cases h : beginning? (lines.take n) with
    | none => rfl
    | some k =>
      have hk := beginning?_lt h
      rw [List.length_take] at hk
      simp only [Option.filter_some, decide_eq_true_eq, show k < n by omega, if_true]
  | false =>
    rw [beginning?_of_idle hs]
    cases h : beginning? lines with
    | none => rfl
    | some k =>
      obtain ⟨hk, hc, -⟩ :=
        List.findIdx?_eq_some_iff_getElem.1 (Option.filter_eq_some_iff.1 h).1
      have hn : ¬ k < n := fun hn => by
        have hm : lines[k] ∈ lines.take n := List.mem_take_iff_getElem.2 ⟨k, by omega, rfl⟩
        exact List.any_eq_false.1 hs _ hm hc
      simp [Option.filter_some, hn]

theorem startOf_take (mode : Mode) (lines : List Text) (n : Nat) :
    startOf mode (lines.take n) =
      if (beginning? lines).any (· < n) then startOf mode lines else 0 := by
  rw [startOf, beginning?_take, startOf]
  cases h : beginning? lines with
  | none => simp
  | some k =>
    by_cases hk : k < n
    · simp [Option.filter_some, hk, List.getElem?_take_of_lt hk]
    · simp [Option.filter_some, hk]

/-- The line that ends a program is no comment, so the beginning is not behind it. -/
theorem beginning?_lt_toEnd {k : Nat} (h : beginning? lines = some k) :
    k < (toEnd lines).length := by
  obtain ⟨hk, hc, hfirst⟩ :=
    List.findIdx?_eq_some_iff_getElem.1 (Option.filter_eq_some_iff.1 h).1
  rw [length_toEnd]
  cases he : lines.findIdx? (·.isDirective .finish) with
  | none => exact hk
  | some e =>
    obtain ⟨hel, hfin, -⟩ := List.findIdx?_eq_some_iff_getElem.1 he
    refine Nat.lt_succ_of_le (Nat.le_of_not_lt fun hek => hfirst e hek ?_)
    rw [Text.isComment_of_isStatement (Text.isStatement_of_isDirective hfin)]
    rfl

theorem startOf_toEnd (mode : Mode) (lines : List Text) :
    startOf mode (toEnd lines) = startOf mode lines := by
  rw [toEnd, startOf_take, ← length_toEnd]
  cases h : beginning? lines with
  | none => simp [startOf, h]
  | some k => simp [beginning?_lt_toEnd h]

theorem laid_take (mode : Mode) (symbols : SymbolTable) {k : Nat} (h : k ≤ (toEnd lines).length) :
    Laid mode (lines.take k) (ofLines mode (lines.take k) symbols) := by
  have := ofLines_laid mode (lines.take k) symbols
  rwa [toEnd_take h] at this

section
variable {k : Nat} {record : Record}
  (h : (ofLines mode lines symbols).records.toList[k]? = some record)
include h

theorem lt_length_toEnd : k < (toEnd lines).length := by
  rw [← length_records mode lines symbols]
  exact (List.getElem?_eq_some_iff.1 h).1

theorem number_record : record.line = k + 1 := by
  obtain ⟨-, step⟩ := record_step h
  rw [step.number, ← Array.length_toList, records_take (Nat.le_of_lt (lt_length_toEnd h)),
    List.length_take, Nat.min_eq_left (Nat.le_of_lt (List.getElem?_eq_some_iff.1 h).1)]

theorem opcode_record {opcode : Opcode} (hcontent : record.content = .instruction opcode) :
    mode.opcode? record.statement.mnemonic = some opcode := by
  obtain ⟨-, step⟩ := record_step h
  rw [step.content, (ofLines_laid mode (lines.take k) symbols).machine] at hcontent
  obtain ⟨hcomment, hopcode⟩ := opcode_contentOf hcontent
  rw [step.statement, hcomment]
  exact hopcode

/-- The address of a record: the widths before it, and the start from the line on that begins the
program. -/
theorem address_record :
    record.address.toNat =
      (widths ((ofLines mode lines symbols).records.toList.take k) +
        if (beginning? lines).any (· ≤ k) then (startOf mode lines).toNat else 0) % 2 ^ 32 := by
  have hk := lt_length_toEnd h
  obtain ⟨-, step⟩ := record_step h
  have laid := laid_take mode symbols (Nat.succ_le_of_lt hk)
  have hcounter := laid.counter
  rw [step.counter, step.records, Array.toList_push, widths_append, widths_singleton,
    records_take (Nat.le_of_lt hk), laid.start, startOf_take, UInt32.toNat_add] at hcounter
  have hle : (beginning? lines).any (· < k + 1) = (beginning? lines).any (· ≤ k) := by
    simp only [Nat.lt_succ_iff]
  rw [hle] at hcounter
  have hlt := record.address.toNat_lt
  cases hb : (beginning? lines).any (· ≤ k) <;>
    simp only [hb, Bool.false_eq_true, ↓reduceIte, UInt32.toNat_zero] at hcounter ⊢ <;> omega

/-- A directive that starts a program but does not begin it: its record has one fault, and the
layout gets this record and stays otherwise as it was. -/
theorem misplaced_record (hd : record.source.isDirective .start = true)
    (hb : beginning? lines ≠ some k) :
    record.width = 0 ∧
      record.faults = [record.faultAt record.statement.mnemonic
        (.misplacedDirective record.statement.mnemonic)] ∧
      ofLines mode (lines.take (k + 1)) symbols =
        (ofLines mode (lines.take k) symbols).push record := by
  have hk := lt_length_toEnd h
  obtain ⟨hline, step⟩ := record_step h
  obtain ⟨hc, hm⟩ := Text.isStatement_iff.1 (Text.isStatement_of_isDirective hd)
  have hstarted : (ofLines mode (lines.take k) symbols).started = true := by
    have laid := laid_take mode symbols (Nat.le_of_lt hk)
    rw [laid.started, ← Bool.not_eq_false]
    intro hidle
    have hbegin := beginning?_concat_of_idle hidle record.source
    have htake : lines.take k ++ [record.source] = lines.take (k + 1) := by
      rw [List.take_add_one, hline, Option.toList_some]
    have hlen : (lines.take k).length = k := by
      rw [List.length_take, Nat.min_eq_left (Nat.le_of_lt (List.getElem?_eq_some_iff.1 hline).1)]
    rw [htake, beginning?_take, hd, if_pos rfl, hlen] at hbegin
    exact hb (Option.filter_eq_some_iff.1 hbegin).1
  have hstatement : record.statement = .ofLine record.source := by simp [step.statement, hc]
  refine ⟨?_, ?_, step.misplaced hd hstarted⟩
  · have hl : record.source.definesLabel = false := by simp [Text.definesLabel, hd]
    simp [step.width, widthOf, hl]
  · rw [step.found, hstatement]
    simp [lineFaults, hc, Nat.not_lt.2 hm, hd, hstarted, Record.faultAt, step.number,
      statementRecord, nextRecord]

end

/-- Among the records, one whose label stands for its address and is the given one. -/
def Defines (record : Record) (label : Text) : Prop :=
  record.source.definesLabel = true ∧ record.statement.label = label

theorem definition?_eq_some {records : List Record} {label : Text} {record : Record} :
    definition? records label = some record ↔
      label ≠ [] ∧ ∃ k : Nat, records[k]? = some record ∧ Defines record label ∧
        ∀ j < k, ∀ other, records[j]? = some other → ¬ Defines other label := by
  unfold definition?
  by_cases hl : label = []
  · simp [hl]
  · simp only [hl, if_false, ne_eq, not_false_eq_true, true_and, Defines]
    rw [List.find?_eq_some_iff_getElem]
    constructor
    · rintro ⟨hp, k, hk, rfl, hfirst⟩
      refine ⟨k, List.getElem?_eq_getElem hk, by simpa using hp, fun j hj other ho hd => ?_⟩
      obtain ⟨hjl, rfl⟩ := List.getElem?_eq_some_iff.1 ho
      simpa [hd.1, hd.2] using hfirst j hj
    · rintro ⟨k, hk, hp, hfirst⟩
      obtain ⟨hkl, rfl⟩ := List.getElem?_eq_some_iff.1 hk
      refine ⟨by simpa using hp, k, hkl, rfl, fun j hj => ?_⟩
      have := hfirst j hj _ (List.getElem?_eq_getElem (by omega))
      simp only [Bool.not_eq_true', Bool.and_eq_false_imp, beq_eq_false_iff_ne]
      exact fun hd hl => this ⟨hd, hl⟩

theorem definition?_isSome {records : List Record} {label : Text} (hl : label ≠ []) :
    (definition? records label).isSome ↔ ∃ record ∈ records, Defines record label := by
  simp [definition?, hl, List.find?_isSome, Defines]

theorem statementFault?_cause {record : Record} {extent : Extent} {fault : Fault}
    (h : statementFault? record extent = some fault) (label : Text) :
    fault.cause ≠ .duplicateLabel label := by
  simp only [statementFault?] at h
  split at h
  · cases h; simp [Record.faultAt]
  · obtain ⟨flaw, -, rfl⟩ := Option.map_eq_some_iff.1 h
    simp [Record.faultAt]

theorem mem_storageRecord_faults (layout : Layout) (line label : Text) :
    (layout.storageBase line).faultAt label (.duplicateLabel label) ∈
        (layout.storageRecord line).faults ↔
      (defineLabel layout.symbols (Statement.ofLine line).label layout.counter).2 = true ∧
        (Statement.ofLine line).label = label := by
  simp only [storageRecord, List.mem_append, Option.mem_toList]
  constructor
  · rintro ((h | h) | h)
    · split at h
      · rename_i hdup
        rw [List.mem_singleton, Record.faultAt, Record.faultAt, Fault.mk.injEq] at h
        exact ⟨hdup, (Cause.duplicateLabel.inj h.2).symm⟩
      · cases h
    · exact absurd rfl (statementFault?_cause h label)
    · split at h
      · simp [Record.faultAt] at h
      · cases h
  · rintro ⟨hdup, rfl⟩
    simp [hdup]

/-- A statement has the fault of a label that is there already if and only if an earlier record has
this label. -/
theorem duplicate_record {k : Nat} {record : Record} {label : Text}
    (h : (ofLines mode lines symbols).records.toList[k]? = some record)
    (hd : Defines record label) (hl : label ≠ []) :
    record.faultAt label (.duplicateLabel label) ∈ record.faults ↔
      ∃ j < k, ∃ other, (ofLines mode lines symbols).records.toList[j]? = some other ∧
        Defines other label := by
  have hk := lt_length_toEnd h
  obtain ⟨-, step⟩ := record_step h
  obtain ⟨hs, rfl⟩ := hd
  have hst := Text.isStatement_of_definesLabel hs
  obtain ⟨hc, hm⟩ := Text.isStatement_iff.1 hst
  obtain ⟨h1, h2, h3⟩ := (Text.definesLabel_iff hst).1 hs
  have hstatement : record.statement = .ofLine record.source := by simp [step.statement, hc]
  have laid := laid_take mode symbols (Nat.le_of_lt hk)
  have hfound : record.faultAt record.statement.label (.duplicateLabel record.statement.label) ∈
      record.faults ↔
      ((ofLines mode (lines.take k) symbols).symbols.get? record.statement.label).isSome := by
    rw [hstatement] at hl ⊢
    have hbase : ∀ cause, record.faultAt (Statement.ofLine record.source).label cause =
        ((ofLines mode (lines.take k) symbols).storageBase record.source).faultAt
          (Statement.ofLine record.source).label cause := by
      simp [Record.faultAt, step.number, storageBase, statementRecord, nextRecord]
    rw [step.found, hbase]
    simp only [lineFaults, hc, Nat.not_lt.2 hm, h1, h2, h3, Bool.false_eq_true, ↓reduceIte,
      Bool.or_self, mem_storageRecord_faults, and_true, defineLabel, hl, SymbolTable.define?]
    cases (ofLines mode (lines.take k) symbols).symbols.get?
      (Statement.ofLine record.source).label <;> simp
  rw [hfound, laid.symbols, Option.isSome_map, definition?_isSome hl,
    records_take (Nat.le_of_lt hk)]
  constructor
  · rintro ⟨other, ho, hd⟩
    obtain ⟨j, hj⟩ := List.mem_iff_getElem?.1 ho
    rw [List.getElem?_take] at hj
    split at hj
    · exact ⟨j, by assumption, other, hj, hd⟩
    · cases hj
  · rintro ⟨j, hj, other, ho, hd⟩
    refine ⟨other, List.mem_iff_getElem?.2 ⟨j, ?_⟩, hd⟩
    rw [List.getElem?_take_of_lt hj, ho]

/-! ## Programs and their lines -/

theorem start_ofLines (mode : Mode) (lines : List Text) (before : SymbolTable) :
    (ofLines mode lines before).start = startOf mode lines := by
  rw [(ofLines_laid mode lines before).start, startOf_toEnd]

theorem length_program (mode : Mode) (lines : List Text) (before : SymbolTable) :
    (ofLines mode lines before).program.length.toNat =
      widths (ofLines mode lines before).records.toList % 2 ^ 32 := by
  change ((ofLines mode lines before).counter - (ofLines mode lines before).start).toNat = _
  have hlt := (ofLines mode lines before).start.toNat_lt
  rw [UInt32.toNat_sub, (ofLines_laid mode lines before).counter]
  omega

/-- What the layout of a program says about its lines, whatever the symbol table had before. -/
structure Accounts (mode : Mode) (lines : List Text) (before : SymbolTable) (layout : Layout) :
    Prop where
  /-- The records go up to the first line that ends the program. -/
  count : layout.program.records.length =
    (lines.findIdx? (·.isDirective .finish)).elim lines.length (· + 1)
  /-- Each record stands for the line at its place. -/
  line : ∀ (k : Nat) record, layout.program.records[k]? = some record →
    lines[k]? = some record.source ∧ record.line = k + 1 ∧
      record.statement = (if record.source.isComment then {} else .ofLine record.source) ∧
      record.width = widthOf mode record.source
  address : ∀ (k : Nat) record, layout.program.records[k]? = some record →
    record.address.toNat =
      (((layout.program.records.take k).map (·.width.toNat)).sum +
        if (beginning? lines).any (· ≤ k) then layout.program.start.toNat else 0) % 2 ^ 32
  start_of_beginning : ∀ (k : Nat) line, beginning? lines = some k → lines[k]? = some line →
    layout.program.start = (startAddress? mode (Statement.ofLine line).operand).getD 0
  start_of_none : beginning? lines = none → layout.program.start = 0
  /-- A directive that starts a program, at another place than its beginning, is a fault of its
  record and changes nothing. -/
  misplaced : ∀ (k : Nat) record, layout.program.records[k]? = some record →
    record.source.isDirective .start = true → beginning? lines ≠ some k →
    record.width = 0 ∧
      record.faults = [record.faultAt record.statement.mnemonic
        (.misplacedDirective record.statement.mnemonic)] ∧
      ofLines mode (lines.take (k + 1)) before = (ofLines mode (lines.take k) before).push record
  length : layout.program.length.toNat =
    (layout.program.records.map (·.width.toNat)).sum % 2 ^ 32
  /-- A label has the address of the first record that defines it. -/
  label : ∀ label address, layout.symbols.get? label = some address ↔
    label ≠ [] ∧ ∃ (k : Nat) (record : Record), layout.program.records[k]? = some record ∧
      record.address = address ∧ Defines record label ∧
      ∀ j < k, ∀ other, layout.program.records[j]? = some other → ¬ Defines other label
  /-- Every later record with the same label has a fault, and the first has not. -/
  duplicate : ∀ (k : Nat) record label, layout.program.records[k]? = some record →
    Defines record label → label ≠ [] →
    (record.faultAt label (.duplicateLabel label) ∈ record.faults ↔
      ∃ j < k, ∃ other, layout.program.records[j]? = some other ∧ Defines other label)

/-- **The layout of a program, from its lines**: one record for each line up to the end, addresses
that add up the widths from the start on, and labels with the address of their first definition. -/
theorem ofLines_accounts (mode : Mode) (lines : List Text) (before : SymbolTable) :
    Accounts mode lines before (ofLines mode lines before) := by
  have laid := ofLines_laid mode lines before
  have hstart := start_ofLines mode lines before
  refine ⟨?count, fun k record h => ?line, fun k record h => ?address, fun k line hb hl => ?begin,
    fun hb => ?none, fun k record h => misplaced_record h, length_program mode lines before,
    fun label address => ?label, fun k record label h => duplicate_record h⟩
  case count =>
    exact (length_records mode lines before).trans (length_toEnd lines)
  case line =>
    obtain ⟨hline, step⟩ := record_step h
    have laid := laid_take mode before (Nat.le_of_lt (lt_length_toEnd h))
    exact ⟨hline, number_record h, step.statement, by rw [step.width, laid.machine]⟩
  case address =>
    have := address_record h
    rwa [← hstart] at this
  case begin =>
    change (ofLines mode lines before).start = _
    rw [hstart, startOf, hb]
    simp [hl]
  case none =>
    change (ofLines mode lines before).start = _
    rw [hstart, startOf, hb]
    rfl
  case label =>
    rw [laid.symbols, Option.map_eq_some_iff]
    simp only [definition?_eq_some]
    constructor
    · rintro ⟨record, ⟨hl, k, hk, hd, hfirst⟩, ha⟩
      exact ⟨hl, k, record, hk, ha, hd, hfirst⟩
    · rintro ⟨hl, k, record, hk, ha, hd, hfirst⟩
      exact ⟨record, ⟨hl, k, hk, hd, hfirst⟩, ha⟩

end SicXe.Layout
