import SicXe.Proofs.Constants
import SicXe.Proofs.Glyphs
import SicXe.Proofs.LayoutRun

/-!
# Programs that fit in memory

The counter has 32 bits, but a program that is laid out without a fault never wraps it:

* `Statement.label_spec`, `Layout.name_spec`: labels and the program's name have at most six bytes.
* `width_le`: a line takes up at most as much as the memory and the line itself are long.
* `Sized`, `ofLines_sized`: as long as the program is not reported as too large, the counter is the
  exact sum of the start and the widths, and within the memory.
* `address_exact`, `record_disjoint`, `record_inside`: in a layout without a fault, records lie
  behind each other between the program's start and its end, which is in memory.

Lines are shorter than `2 ^ 31` bytes here, which `Input.lines` grants.
-/

namespace SicXe

theorem Mode.memorySize_le (mode : Mode) : 4 ≤ mode.memorySize.toNat ∧
    mode.memorySize.toNat ≤ 0x100000 := by
  cases mode <;> decide

theorem Statement.length_operand_le (line : Text) :
    (Statement.ofLine line).operand.length ≤ line.length := by
  have hmem : (Statement.ofLine line).operand = [] ∨
      (Statement.ofLine line).operand ∈ line.fields := by
    rw [Statement.ofLine]
    rcases line.fields with _ | ⟨a, _ | ⟨b, _ | ⟨c, rest⟩⟩⟩ <;> simp [Statement.ofFields]
  rcases hmem with h | h
  · simp [h]
  · exact Text.length_field_le h

/-- A label has at most six bytes and no blank. -/
theorem Statement.label_spec (line : Text) :
    (ofLine line).label.length ≤ maxLabel ∧
      ∀ b ∈ (ofLine line).label, Text.isSpace b = false := by
  have hlabel : (ofLine line).label = [] ∨
      ∃ field ∈ line.fields, (ofLine line).label = field.take maxLabel := by
    rw [ofLine]
    rcases line.fields with _ | ⟨a, _ | ⟨b, _ | ⟨c, rest⟩⟩⟩ <;> simp [ofFields]
  rcases hlabel with h | ⟨field, hfield, h⟩
  · simp [h]
  · rw [h]
    refine ⟨List.length_take_le _ _, fun b hb => ?_⟩
    exact Text.isSpace_of_mem_field hfield (List.mem_of_mem_take hb)

theorem Layout.name_spec (mode : Mode) (lines : List Text) (symbols : SymbolTable) :
    (ofLines mode lines symbols).name.length ≤ Statement.maxLabel ∧
      ∀ b ∈ (ofLines mode lines symbols).name, Text.isSpace b = false := by
  refine ofLines_induction (P := fun _ layout => layout.name.length ≤ Statement.maxLabel ∧
    ∀ b ∈ layout.name, Text.isSpace b = false) (by simp) ?_ lines symbols
  intro done layout line record _ h step
  rw [step.name]
  split
  · exact Statement.label_spec line
  · exact h

namespace Layout

variable {mode : Mode} {lines : List Text} {symbols : SymbolTable}

/-! ## Widths -/

theorem width_ofByteOperand_le (operand : Text) :
    (Extent.ofByteOperand operand).width.toNat ≤ operand.length + 1 := by
  unfold Extent.ofByteOperand
  split
  · split
    · rename_i data hd
      have := Constant.length_decode?_le hd
      have := Nat.mod_le data.length (2 ^ 32)
      simp only [UInt32.toNat_ofNat']
      omega
    · simp
  · split
    · simp
    · split <;> simp

theorem width_ofReservation_le (memory : UInt32) (unit : Nat) (operand : Text) :
    (Extent.ofReservation memory unit operand).width.toNat ≤ memory.toNat := by
  unfold Extent.ofReservation
  split
  · simp
  · split
    · simp
    · dsimp only
      split
      · simp
      · rw [UInt32.toNat_ofNat']
        exact Nat.le_trans (Nat.mod_le ..) (by omega)

theorem Format.width_le (format : Format) : format.width.toNat ≤ 4 := by
  cases format <;> decide

/-- A line takes up at most as much as the memory and the line itself are long. -/
theorem width_le (mode : Mode) (line : Text) :
    (extentAt mode line).2.width.toNat ≤ mode.memorySize.toNat + line.length := by
  have hm := mode.memorySize_le
  have ho := Statement.length_operand_le line
  unfold extentAt extentOf
  split
  · have := width_ofByteOperand_le (Statement.ofLine line).operand
    dsimp only; omega
  · simp only [Extent.ofWordOperand]
    have : (3 : UInt32).toNat = 3 := rfl
    omega
  · have := width_ofReservation_le mode.memorySize 1 (Statement.ofLine line).operand
    dsimp only; omega
  · have := width_ofReservation_le mode.memorySize 3 (Statement.ofLine line).operand
    dsimp only; omega
  · simp
  · split
    · rename_i opcode _
      have := Format.width_le opcode.format
      dsimp only; omega
    · simp

theorem startAddress?_lt {operand : Text} {start : UInt32}
    (h : startAddress? mode operand = some start) : start.toNat < mode.memorySize.toNat := by
  unfold startAddress? at h
  split at h
  · split at h
    · rename_i hlt
      cases h
      exact hlt
    · cases h
  · cases h

/-! ## Exact sums -/

/-- The layout of lines as long as it is in memory. -/
structure Sized (layout : Layout) : Prop where
  /-- A program that is too large was reported. -/
  reported : layout.oversized = true → layout.faults ≠ #[]
  exact : layout.oversized = false →
    layout.counter.toNat = layout.start.toNat + widths layout.records.toList ∧
      layout.counter.toNat ≤ layout.mode.memorySize.toNat

/-- A step keeps that a program that is too large was reported. -/
theorem reported_step {layout : Layout} {line : Text} {record : Record}
    (h : layout.oversized = true → layout.faults ≠ #[])
    (step : Step layout line record (layout.pushLine line))
    (hover : (layout.pushLine line).oversized = true) : (layout.pushLine line).faults ≠ #[] := by
  rw [step.faults, step.found]
  rw [step.oversized, Bool.or_eq_true, Bool.and_eq_true] at hover
  rcases hover with hover | ⟨hd, hexc⟩
  · intro hnil
    exact h hover (Array.append_eq_empty_iff.1 hnil).1
  · have hs := Text.isStatement_of_definesLabel hd
    obtain ⟨hc, hm⟩ := Text.isStatement_iff.1 hs
    obtain ⟨h1, h2, h3⟩ := (Text.definesLabel_iff hs).1 hd
    simp [lineFaults, hc, Nat.not_lt.2 hm, h1, h2, h3, storageRecord, hexc]

theorem sized_step {layout : Layout} {line : Text} {record : Record} {done : List Text}
    (laid : Laid mode done layout) (h : Sized layout) (hlen : line.length < 2 ^ 31)
    (step : Step layout line record (layout.pushLine line)) : Sized (layout.pushLine line) := by
  refine ⟨reported_step h.reported step, fun hover => ?exact⟩
  case exact =>
    rw [step.oversized, Bool.or_eq_false_iff] at hover
    obtain ⟨hexact, hfits⟩ := h.exact hover.1
    have hmem := layout.mode.memorySize_le
    rw [step.records, Array.toList_push, widths_append, widths_singleton, step.mode, step.counter,
      step.address, step.width]
    cases hb : layout.begins line with
    | true =>
      -- behind comments only: the counter is set to the start
      simp only [begins, Bool.and_eq_true, Bool.not_eq_true'] at hb
      have hl : line.definesLabel = false := by simp [Text.definesLabel, hb.2]
      have hstart := step.start
      simp only [begins, hb.1, hb.2, Bool.not_false, Bool.and_self, ↓reduceIte] at hstart
      simp only [↓reduceIte, widthOf, hl, Bool.false_eq_true, laid.idle hb.1, UInt32.add_zero,
        UInt32.toNat_zero, Nat.add_zero, true_and, hstart]
      cases ha : startAddress? layout.mode (Statement.ofLine line).operand with
      | none => simp
      | some start => exact Nat.le_of_lt (startAddress?_lt ha)
    | false =>
      have hstart : (layout.pushLine line).start = layout.start := by simp [step.start, hb]
      rw [hstart, if_neg Bool.false_ne_true]
      cases hd : line.definesLabel with
      | false => simp [widthOf, hd, hexact.symm, hfits]
      | true =>
        have hwidth := width_le layout.mode line
        have hexc := hover.2
        simp only [hd, Bool.true_and, exceeds, hover.1, Bool.not_false, Bool.and_true,
          decide_eq_false_iff_not, UInt32.not_lt, UInt32.le_iff_toNat_le, UInt32.toNat_add] at hexc
        simp only [widthOf, hd, ↓reduceIte, UInt32.toNat_add]
        omega

theorem ofLines_sized (mode : Mode) {lines : List Text} (symbols : SymbolTable)
    (hlen : ∀ line ∈ lines, line.length < 2 ^ 31) : Sized (ofLines mode lines symbols) := by
  have hend : ∀ line ∈ toEnd lines, line.length < 2 ^ 31 :=
    fun line hl => hlen line (List.mem_of_mem_take hl)
  refine (ofLines_induction (P := fun done layout =>
    (∀ line ∈ done, line.length < 2 ^ 31) → Laid mode done layout ∧ Sized layout) ?_ ?_ lines
      symbols hend).2
  · exact fun _ => ⟨laid_nil mode, nofun, fun _ => ⟨rfl, Nat.zero_le _⟩⟩
  · intro done layout line record _ ih step hd
    obtain ⟨laid, sized⟩ := ih fun l hl => hd l (by simp [hl])
    exact ⟨laid_step laid step, sized_step laid sized (hd line (by simp)) step⟩

/-! ## Layouts without a fault -/

theorem widths_take_le (records : List Record) (k : Nat) :
    widths (records.take k) ≤ widths records := by
  conv => rhs; rw [← List.take_append_drop k records]
  rw [widths_append]
  omega

theorem widths_take_succ {records : List Record} {k : Nat} {record : Record}
    (h : records[k]? = some record) :
    widths (records.take (k + 1)) = widths (records.take k) + record.width.toNat := by
  rw [List.take_add_one, h, Option.toList_some, widths_append, widths_singleton]

theorem widths_take_mono (records : List Record) {j k : Nat} (h : j ≤ k) :
    widths (records.take j) ≤ widths (records.take k) := by
  have := widths_take_le (records.take k) j
  rwa [List.take_take, Nat.min_eq_left h] at this

section
variable (hfree : (ofLines mode lines symbols).program.errorFree = true)
  (hlen : ∀ line ∈ lines, line.length < 2 ^ 31)
include hfree hlen

/-- A program without a fault is in memory, from its start to the sum of its widths. -/
theorem total_exact :
    (ofLines mode lines symbols).counter.toNat =
        (ofLines mode lines symbols).start.toNat +
          widths (ofLines mode lines symbols).records.toList ∧
      (ofLines mode lines symbols).counter.toNat ≤ mode.memorySize.toNat := by
  have sized := ofLines_sized mode symbols hlen
  have hover : (ofLines mode lines symbols).oversized = false := by
    rw [← Bool.not_eq_true]
    exact fun h => sized.reported h (Array.isEmpty_iff.1 hfree)
  have := sized.exact hover
  rwa [(ofLines_laid mode lines symbols).machine] at this

theorem length_exact :
    (ofLines mode lines symbols).program.length.toNat =
      widths (ofLines mode lines symbols).records.toList := by
  obtain ⟨hexact, -⟩ := total_exact hfree hlen
  have hlt := (ofLines mode lines symbols).counter.toNat_lt
  change ((ofLines mode lines symbols).counter - (ofLines mode lines symbols).start).toNat = _
  rw [UInt32.toNat_sub]
  omega

section
variable {k : Nat} {record : Record}
  (h : (ofLines mode lines symbols).records.toList[k]? = some record)
include h

/-- The address of a record, without wrapping. -/
theorem address_exact :
    record.address.toNat =
      widths ((ofLines mode lines symbols).records.toList.take k) +
        if (beginning? lines).any (· ≤ k) then (ofLines mode lines symbols).start.toNat else 0 := by
  obtain ⟨hexact, -⟩ := total_exact hfree hlen
  have hlt := (ofLines mode lines symbols).counter.toNat_lt
  have hle := widths_take_le (ofLines mode lines symbols).records.toList k
  rw [address_record h, ← start_ofLines mode lines symbols]
  refine Nat.mod_eq_of_lt ?_
  split <;> omega

/-- **Records lie behind each other.** -/
theorem record_disjoint {j : Nat} {before : Record}
    (hj : (ofLines mode lines symbols).records.toList[j]? = some before) (hjk : j < k) :
    before.address.toNat + before.width.toNat ≤ record.address.toNat := by
  rw [address_exact hfree hlen h, address_exact hfree hlen hj]
  have hmono := widths_take_mono (ofLines mode lines symbols).records.toList
    (Nat.succ_le_of_lt hjk)
  rw [widths_take_succ hj] at hmono
  have hany : (beginning? lines).any (· ≤ j) = true → (beginning? lines).any (· ≤ k) = true := by
    cases beginning? lines with
    | none => simp
    | some b => simp only [Option.any_some, decide_eq_true_eq]; omega
  split <;> rename_i hb
  · rw [if_pos (hany hb)]; omega
  · omega

/-- **Records lie inside the program**, if they take up storage. -/
theorem record_inside (hw : 0 < record.width.toNat) :
    (ofLines mode lines symbols).start.toNat ≤ record.address.toNat ∧
      record.address.toNat + record.width.toNat ≤
        (ofLines mode lines symbols).start.toNat +
          (ofLines mode lines symbols).program.length.toNat := by
  rw [length_exact hfree hlen, address_exact hfree hlen h]
  have hle := widths_take_le (ofLines mode lines symbols).records.toList (k + 1)
  rw [widths_take_succ h] at hle
  obtain ⟨hline, step⟩ := record_step h
  have hstart := start_ofLines mode lines symbols
  -- the record is of a statement, so it does not stand before the program begins
  have hdef : record.source.definesLabel = true := by
    rw [← Bool.not_eq_false]
    intro hd
    simp [step.width, widthOf, hd] at hw
  have hc := Text.isComment_of_isStatement (Text.isStatement_of_definesLabel hdef)
  cases hb : beginning? lines with
  | none =>
    have hzero : (ofLines mode lines symbols).start = 0 := by rw [hstart, startOf, hb]; rfl
    simp only [Option.any_none, Bool.false_eq_true, ↓reduceIte, hzero, UInt32.toNat_zero]
    omega
  | some b =>
    obtain ⟨hlt, hbc, hfirst⟩ :=
      List.findIdx?_eq_some_iff_getElem.1 (Option.filter_eq_some_iff.1 hb).1
    have hbk : b ≤ k := by
      refine Nat.le_of_not_lt fun hkb => ?_
      obtain ⟨_, hsource⟩ := List.getElem?_eq_some_iff.1 hline
      have := hfirst k hkb
      rw [hsource, hc] at this
      exact this rfl
    simp only [Option.any_some, hbk, decide_true, ↓reduceIte]
    omega

end

end

end Layout

end SicXe
