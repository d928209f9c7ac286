import SicXe.Proofs.LabelReferences

/-!
# The layout of a program that starts elsewhere

Two programs that differ in their start address only are laid out alike:

* `Confined`, `address_le`: in a layout without a fault no address is beyond the memory, however
  long the lines are. So an address that is known modulo `2 ^ 32` is known.
* `Restart`: the lines of the two programs.
* `record_restart`, `address_restart`: their records are the same, and from the start on the
  addresses are shifted by the distance of the start addresses.
* `get?_restart`: so are the addresses of the labels.
-/

namespace SicXe.Layout

/-! ## Addresses in memory -/

/-- A layout that is in memory unless it was reported as too large. -/
structure Confined (layout : Layout) : Prop where
  reported : layout.oversized = true → layout.faults ≠ #[]
  counter : layout.oversized = false → layout.counter.toNat ≤ layout.mode.memorySize.toNat
  addresses : layout.oversized = false → ∀ record ∈ layout.records.toList,
    record.address.toNat ≤ layout.mode.memorySize.toNat

section
variable {layout : Layout} {line : Text} {record : Record}

theorem startAddress?_getD_le (mode : Mode) (operand : Text) :
    ((startAddress? mode operand).getD 0).toNat ≤ mode.memorySize.toNat := by
  cases h : startAddress? mode operand with
  | none => exact Nat.zero_le _
  | some start => exact Nat.le_of_lt (startAddress?_lt h)

theorem confined_step (h : Confined layout)
    (step : Step layout line record (layout.pushLine line)) : Confined (layout.pushLine line) := by
  have hbefore (hover : (layout.pushLine line).oversized = false) :
      layout.oversized = false ∧ (line.definesLabel && layout.exceeds line) = false := by
    rw [step.oversized] at hover
    exact Bool.or_eq_false_iff.1 hover
  have haddress (hover : layout.oversized = false) :
      record.address.toNat ≤ layout.mode.memorySize.toNat := by
    rw [step.address, step.start]
    split
    · exact startAddress?_getD_le layout.mode (Statement.ofLine line).operand
    · exact h.counter hover
  refine ⟨reported_step h.reported step, fun hover => ?_, fun hover => ?_⟩
  · obtain ⟨hprevious, hexceeds⟩ := hbefore hover
    rw [step.mode, step.counter, step.width, widthOf]
    cases hd : line.definesLabel with
    | false =>
      rw [if_neg Bool.false_ne_true, UInt32.add_zero]
      exact haddress hprevious
    | true =>
      -- storage is counted from the counter, and was found to be in memory
      have hs := Text.isStatement_of_definesLabel hd
      have hb : layout.begins line = false := by
        simp [begins, ((Text.definesLabel_iff hs).1 hd).1]
      rw [hd, Bool.true_and, exceeds, hprevious, Bool.not_false, Bool.and_true,
        decide_eq_false_iff_not, UInt32.not_lt] at hexceeds
      rw [if_pos rfl, step.address, hb]
      exact hexceeds
  · obtain ⟨hprevious, -⟩ := hbefore hover
    rw [step.records, Array.toList_push, step.mode]
    intro other hother
    rcases List.mem_append.1 hother with hother | hother
    · exact h.addresses hprevious other hother
    · rw [List.mem_singleton.1 hother]
      exact haddress hprevious

theorem ofLines_confined (mode : Mode) (lines : List Text) (symbols : SymbolTable) :
    Confined (ofLines mode lines symbols) := by
  refine ofLines_induction (P := fun _ layout => Confined layout) ?_ ?_ lines symbols
  · refine ⟨?_, fun _ => Nat.zero_le _, ?_⟩
    · intro hover
      cases hover
    · intro _ record hrecord
      cases hrecord
  · intro done layout line record _ h step
    exact confined_step h step

theorem address_le {mode : Mode} {lines : List Text} {symbols : SymbolTable}
    (hfree : (ofLines mode lines symbols).program.errorFree = true)
    (h : record ∈ (ofLines mode lines symbols).records.toList) :
    record.address.toNat ≤ mode.memorySize.toNat := by
  have confined := ofLines_confined mode lines symbols
  have hover : (ofLines mode lines symbols).oversized = false := by
    rw [← Bool.not_eq_true]
    intro hover
    exact confined.reported hover (Array.isEmpty_iff.1 hfree)
  have := confined.addresses hover record h
  rwa [(ofLines_laid mode lines symbols).machine] at this

end

theorem widths_records (mode : Mode) (lines : List Text) (symbols : SymbolTable) :
    (ofLines mode lines symbols).records.toList.map (·.width) =
      (toEnd lines).map (widthOf mode) := by
  refine (ofLines_induction (P := fun done layout => layout.mode = mode ∧
    layout.records.toList.map (·.width) = done.map (widthOf mode)) ⟨rfl, rfl⟩ ?_ lines symbols).2
  rintro done layout line record - ⟨hmode, ih⟩ step
  refine ⟨step.mode.trans hmode, ?_⟩
  rw [step.records, Array.toList_push, List.map_append, ih, List.map_append, List.map_singleton,
    List.map_singleton, step.width, hmode]

theorem widths_eq_sum (records : List Record) :
    widths records = ((records.map (·.width)).map UInt32.toNat).sum := by
  rw [widths, List.map_map]
  rfl

/-! ## Programs that start elsewhere -/

/-- Two lines that begin a program with the same name, behind comments. -/
structure Restart (front : List Text) (line line' : Text) : Prop where
  idle : ∀ comment ∈ front, comment.isComment = true
  first : line.isDirective .start = true
  second : line'.isDirective .start = true
  label : (Statement.ofLine line).label = (Statement.ofLine line').label

variable {mode : Mode} {front rest : List Text} {line line' : Text}

theorem Restart.symm (h : Restart front line line') : Restart front line' line :=
  ⟨h.idle, h.second, h.first, h.label.symm⟩

section
variable (hidle : ∀ comment ∈ front, comment.isComment = true)
  (hstart : line.isDirective .start = true)
include hidle hstart

theorem beginning?_restart : beginning? (front ++ line :: rest) = some front.length := by
  have hany : front.any (!·.isComment) = false := by
    rw [List.any_eq_false]
    intro comment hcomment
    rw [hidle comment hcomment]
    exact Bool.false_ne_true
  have hc := Text.isComment_of_isStatement (Text.isStatement_of_isDirective hstart)
  rw [List.append_cons, beginning?_append_of_started (by simp [hc]),
    beginning?_concat_of_idle hany, if_pos hstart]

theorem toEnd_restart : toEnd (front ++ line :: rest) = front ++ line :: toEnd rest := by
  induction front with
  | nil => exact toEnd_cons (Text.isDirective_eq_false hstart (by decide)) rest
  | cons comment front ih =>
    have hcomment : comment.isStatement = false := by
      simp [Text.isStatement, hidle comment List.mem_cons_self]
    rw [List.cons_append, toEnd_cons (Text.isDirective_of_not_isStatement hcomment _),
      ih fun other hother => hidle other (List.mem_cons_of_mem _ hother)]
    rfl

/-- In a program without a fault the operand of its first statement gives a start address. -/
theorem startAddress?_isSome
    (hfree : (ofLines mode (front ++ line :: rest)).program.errorFree = true) :
    (startAddress? mode (Statement.ofLine line).operand).isSome = true := by
  have hlength : front.length <
      (ofLines mode (front ++ line :: rest)).records.toList.length := by
    rw [length_records, toEnd_restart hidle hstart]
    simp
  have hrecord := List.getElem?_eq_getElem hlength
  obtain ⟨hsource, step⟩ := record_step hrecord
  have hclean := congrArg Record.faults (Assembly.bare_layout hfree hrecord)
  have hline :
      line = (ofLines mode (front ++ line :: rest)).records.toList[front.length].source := by
    simpa using hsource
  rw [← hline] at step
  -- behind comments the directive is not misplaced, so its operand has no fault
  have hquiet : (ofLines mode ((front ++ line :: rest).take front.length)).started = false := by
    rw [List.take_left, (ofLines_laid _ _ _).started, List.any_eq_false]
    intro comment hcomment
    rw [hidle comment (List.mem_of_mem_take hcomment)]
    exact Bool.false_ne_true
  have hmode : (ofLines mode ((front ++ line :: rest).take front.length)).mode = mode :=
    (ofLines_laid mode _ _).machine
  obtain ⟨hc, hm⟩ := Text.isStatement_iff.1 (Text.isStatement_of_isDirective hstart)
  rw [step.found, lineFaults, if_neg (Bool.eq_false_iff.1 hc), if_neg (Nat.not_lt.2 hm),
    if_pos hstart, hquiet, if_neg Bool.false_ne_true, hmode] at hclean
  rw [← Bool.not_eq_false]
  intro hnone
  rw [hnone] at hclean
  cases hclean

/-- A program without a fault starts where its first statement says. -/
theorem start_restart
    (hfree : (ofLines mode (front ++ line :: rest)).program.errorFree = true) {start : UInt32}
    (hdecode : Numeral.decodeAddress (Statement.ofLine line).operand = .ok start) :
    (ofLines mode (front ++ line :: rest)).start = start ∧
      start.toNat < mode.memorySize.toNat := by
  have hbegin : (ofLines mode (front ++ line :: rest)).start =
      (startAddress? mode (Statement.ofLine line).operand).getD 0 := by
    rw [start_ofLines, startOf, beginning?_restart hidle hstart]
    simp
  obtain ⟨address, haddress⟩ :=
    Option.isSome_iff_exists.1 (startAddress?_isSome hidle hstart hfree)
  have hstarts : address = start := by
    rw [startAddress?, hdecode] at haddress
    dsimp only at haddress
    split at haddress
    · exact (Option.some.inj haddress).symm
    · cases haddress
  rw [hbegin, haddress, ← hstarts]
  exact ⟨rfl, startAddress?_lt haddress⟩

end

section
variable (h : Restart front line line')
include h

theorem count_restart :
    (ofLines mode (front ++ line :: rest)).records.toList.length =
      (ofLines mode (front ++ line' :: rest)).records.toList.length := by
  rw [length_records, length_records, toEnd_restart h.idle h.first, toEnd_restart h.idle h.second]
  simp

theorem width_restart :
    (ofLines mode (front ++ line :: rest)).records.toList.map (·.width) =
      (ofLines mode (front ++ line' :: rest)).records.toList.map (·.width) := by
  have hwidth : widthOf mode line = widthOf mode line' := by
    rw [widthOf, widthOf, definesLabel_directive h.first (.inl rfl),
      definesLabel_directive h.second (.inl rfl), if_neg Bool.false_ne_true,
      if_neg Bool.false_ne_true]
  rw [widths_records, widths_records, toEnd_restart h.idle h.first, toEnd_restart h.idle h.second,
    List.map_append, List.map_append, List.map_cons, List.map_cons, hwidth]

theorem widths_restart (j : Nat) :
    widths ((ofLines mode (front ++ line :: rest)).records.toList.take j) =
      widths ((ofLines mode (front ++ line' :: rest)).records.toList.take j) := by
  simp only [widths_eq_sum, List.map_take, width_restart h]

theorem length_restart :
    (ofLines mode (front ++ line :: rest)).program.length =
      (ofLines mode (front ++ line' :: rest)).program.length := by
  rw [← UInt32.toNat_inj, length_program, length_program, widths_eq_sum, widths_eq_sum,
    width_restart h]

/-- **The records of both programs** are the same, but for the directive that begins them. -/
theorem record_restart {j : Nat} {record record' : Record}
    (hr : (ofLines mode (front ++ line :: rest)).records.toList[j]? = some record)
    (hr' : (ofLines mode (front ++ line' :: rest)).records.toList[j]? = some record') :
    record.content = record'.content ∧ record.width = record'.width ∧
      (record.content = .directive .start ∧ record.source.definesLabel = false ∧
          record'.source.definesLabel = false ∨
        record.source = record'.source ∧ record.statement = record'.statement) := by
  obtain ⟨hline, step⟩ := record_step hr
  obtain ⟨hline', step'⟩ := record_step hr'
  have hmode := (ofLines_laid mode ((front ++ line :: rest).take j) .empty).machine
  have hmode' := (ofLines_laid mode ((front ++ line' :: rest).take j) .empty).machine
  rw [step.content, step'.content, step.width, step'.width, step.statement, step'.statement, hmode,
    hmode']
  by_cases hj : j = front.length
  · subst hj
    have hs : line = record.source := by simpa using hline
    have hs' : line' = record'.source := by simpa using hline'
    rw [← hs, ← hs', contentOf_directive h.first (.inl rfl),
      contentOf_directive h.second (.inl rfl), widthOf, widthOf,
      definesLabel_directive h.first (.inl rfl), definesLabel_directive h.second (.inl rfl)]
    exact ⟨rfl, rfl, .inl ⟨rfl, rfl, rfl⟩⟩
  · have hsame : (front ++ line :: rest)[j]? = (front ++ line' :: rest)[j]? := by
      rw [List.getElem?_append, List.getElem?_append]
      split
      · rfl
      · obtain ⟨i, hi⟩ : ∃ i, j - front.length = i + 1 := ⟨j - front.length - 1, by omega⟩
        rw [hi, List.getElem?_cons_succ, List.getElem?_cons_succ]
    have hs : record.source = record'.source :=
      Option.some.inj (hline.symm.trans (hsame.trans hline'))
    rw [hs]
    exact ⟨rfl, rfl, .inr ⟨rfl, rfl⟩⟩

theorem defines_restart {j : Nat} {record record' : Record}
    (hr : (ofLines mode (front ++ line :: rest)).records.toList[j]? = some record)
    (hr' : (ofLines mode (front ++ line' :: rest)).records.toList[j]? = some record')
    {label : Text} (hd : Defines record label) : Defines record' label := by
  obtain ⟨-, -, ⟨-, hnone, -⟩ | ⟨hsource, hstatement⟩⟩ := record_restart h hr hr'
  · rw [Defines, hnone] at hd
    cases hd.1
  · rwa [Defines, ← hsource, ← hstatement]

/-- Only comments stand in front of the directive that begins a program. -/
theorem le_of_not_comment {j : Nat} {record : Record}
    (hr : (ofLines mode (front ++ line :: rest)).records.toList[j]? = some record)
    (hc : record.source.isComment = false) : front.length ≤ j := by
  obtain ⟨hline, -⟩ := record_step hr
  refine Nat.le_of_not_lt fun hlt => ?_
  rw [List.getElem?_append_left hlt] at hline
  rw [h.idle _ (List.mem_of_getElem? hline)] at hc
  cases hc

variable (hfree : (ofLines mode (front ++ line :: rest)).program.errorFree = true)
  (hfree' : (ofLines mode (front ++ line' :: rest)).program.errorFree = true)
  {start start' : UInt32}
  (hdecode : Numeral.decodeAddress (Statement.ofLine line).operand = .ok start)
  (hdecode' : Numeral.decodeAddress (Statement.ofLine line').operand = .ok start')
include hfree hfree' hdecode hdecode'

/-- **Addresses are shifted** from the directive on that begins the programs. -/
theorem address_restart {j : Nat} {record record' : Record}
    (hr : (ofLines mode (front ++ line :: rest)).records.toList[j]? = some record)
    (hr' : (ofLines mode (front ++ line' :: rest)).records.toList[j]? = some record')
    (hj : front.length ≤ j) :
    (record'.address.toNat : Int) = record.address.toNat + (start'.toNat - start.toNat) := by
  have haddress := address_record hr
  have haddress' := address_record hr'
  obtain ⟨hstart, hlow⟩ := start_restart h.idle h.first hfree hdecode
  obtain ⟨hstart', hlow'⟩ := start_restart h.idle h.second hfree' hdecode'
  rw [beginning?_restart h.idle h.first, Option.any_some, decide_eq_true hj, if_pos rfl,
    ← start_ofLines mode _ .empty, hstart] at haddress
  rw [beginning?_restart h.idle h.second, Option.any_some, decide_eq_true hj, if_pos rfl,
    ← start_ofLines mode _ .empty, hstart', ← widths_restart h] at haddress'
  -- both are known modulo `2 ^ 32`, and both are in memory
  have hle := address_le hfree (List.mem_of_getElem? hr)
  have hle' := address_le hfree' (List.mem_of_getElem? hr')
  have hmemory := mode.memorySize_le
  omega

/-- A label of the first program is one of the second, with the shifted address. -/
theorem get?_restart {label : Text} {address : UInt32}
    (hget : (ofLines mode (front ++ line :: rest)).symbols.get? label = some address) :
    ∃ address', (ofLines mode (front ++ line' :: rest)).symbols.get? label = some address' ∧
      (address'.toNat : Int) = address.toNat + (start'.toNat - start.toNat) := by
  rw [(ofLines_laid mode _ .empty).symbols] at hget
  obtain ⟨definer, hdefinition, rfl⟩ := Option.map_eq_some_iff.1 hget
  obtain ⟨hne, j, hj, hdefines, hfirst⟩ := definition?_eq_some.1 hdefinition
  have hlength := (List.getElem?_eq_some_iff.1 hj).1
  rw [count_restart h] at hlength
  have hj' := List.getElem?_eq_getElem hlength
  have hdefinition' := definition?_eq_some.2 ⟨hne, j, hj', defines_restart h hj hj' hdefines, by
    intro i hi other hother hd
    have hi' := List.getElem?_eq_getElem (Nat.lt_trans hi (List.getElem?_eq_some_iff.1 hj).1)
    exact hfirst i hi _ hi' (defines_restart h.symm hother hi' hd)⟩
  have hcomment := Text.isComment_of_isStatement (Text.isStatement_of_definesLabel hdefines.1)
  refine ⟨_, ?_, address_restart h hfree hfree' hdecode hdecode' hj hj'
    (le_of_not_comment h hj hcomment)⟩
  rw [(ofLines_laid mode _ .empty).symbols, hdefinition']
  rfl

end

end SicXe.Layout
