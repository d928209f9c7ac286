import SicXe.Program.Layout

/-!
# One line of a layout

What `Layout.pushLine` does with a line, said once for all kinds of lines:

* `Text.isStatement`, `Text.isDirective`, `Text.definesLabel`: the kinds of lines, told from the
  text alone.
* `pushLine_comment` to `pushLine_storage`: the layout after a line of each kind.
* `Layout.Step`, `pushLine_step`: the parts that all kinds have in common. A line adds one record;
  the counter goes from the record's address by its width; only the directive that begins the
  program moves the start.
* `ofLines_induction`: what holds of the empty layout and is kept by every step holds of the layout
  of a program, whose lines are those up to its end (`toEnd`).
-/

namespace SicXe

/-! ## Directives by their keywords -/

theorem Directive.ofKeyword?_keyword (directive : Directive) :
    Directive.ofKeyword? directive.keyword = some directive := by
  cases directive <;> decide

theorem Directive.ofKeyword?_eq_some {mnemonic : Text} {directive : Directive} :
    Directive.ofKeyword? mnemonic = some directive ↔ mnemonic = directive.keyword := by
  refine ⟨fun h => ?_, fun h => h ▸ ofKeyword?_keyword directive⟩
  have := List.find?_some h
  exact (beq_iff_eq.1 this).symm

/-! ## Kinds of lines -/

namespace Text

/-- Whether a line holds a statement: it is no comment and has no more fields than it may. -/
def isStatement (line : Text) : Bool :=
  !line.isComment && decide (line.fields.length ≤ Statement.maxFields)

/-- Whether a line is a statement with the keyword of a directive. -/
def isDirective (directive : Directive) (line : Text) : Bool :=
  line.isStatement && (Statement.ofLine line).mnemonic == directive.keyword

/-- Whether a line is a statement whose label stands for its address. The directives that start and
end the program and announce the base register have no such label. -/
def definesLabel (line : Text) : Bool :=
  line.isStatement && !line.isDirective .start && !line.isDirective .finish &&
    !line.isDirective .base

theorem isStatement_iff {line : Text} :
    line.isStatement = true ↔
      line.isComment = false ∧ line.fields.length ≤ Statement.maxFields := by
  simp [isStatement]

theorem isComment_of_isStatement {line : Text} (h : line.isStatement = true) :
    line.isComment = false :=
  (isStatement_iff.1 h).1

theorem isStatement_of_isDirective {line : Text} {directive : Directive}
    (h : line.isDirective directive = true) : line.isStatement = true := by
  simp only [isDirective, Bool.and_eq_true] at h
  exact h.1

theorem isStatement_of_definesLabel {line : Text} (h : line.definesLabel = true) :
    line.isStatement = true := by
  simp only [definesLabel, Bool.and_eq_true] at h
  exact h.1.1.1

theorem isDirective_iff {line : Text} {directive : Directive} (h : line.isStatement = true) :
    line.isDirective directive = true ↔
      Directive.ofKeyword? (Statement.ofLine line).mnemonic = some directive := by
  rw [Directive.ofKeyword?_eq_some]
  simp [isDirective, h]

/-- A line is one directive at most. -/
theorem isDirective_unique {line : Text} {d d' : Directive} (h : line.isDirective d = true)
    (h' : line.isDirective d' = true) : d = d' := by
  have hs := isStatement_of_isDirective h
  rw [isDirective_iff hs] at h h'
  exact Option.some.inj (h.symm.trans h')

theorem isDirective_eq_false {line : Text} {d d' : Directive} (h : line.isDirective d = true)
    (hne : d ≠ d') : line.isDirective d' = false :=
  Bool.eq_false_iff.2 fun h' => hne (isDirective_unique h h')

theorem isDirective_of_not_isStatement {line : Text} (h : line.isStatement = false)
    (directive : Directive) : line.isDirective directive = false := by
  simp [isDirective, h]

theorem definesLabel_of_not_isStatement {line : Text} (h : line.isStatement = false) :
    line.definesLabel = false := by
  simp [definesLabel, h]

theorem definesLabel_iff {line : Text} (h : line.isStatement = true) :
    line.definesLabel = true ↔
      line.isDirective .start = false ∧ line.isDirective .finish = false ∧
        line.isDirective .base = false := by
  simp [definesLabel, h, and_assoc]

/-- The kinds of lines. -/
theorem line_cases (line : Text) :
    line.isComment = true ∨
      (line.isComment = false ∧ Statement.maxFields < line.fields.length) ∨
      line.isDirective .start = true ∨ line.isDirective .finish = true ∨
      line.isDirective .base = true ∨ line.definesLabel = true := by
  cases hc : line.isComment with
  | true => exact .inl rfl
  | false =>
    by_cases hf : line.fields.length ≤ Statement.maxFields
    · have hs : line.isStatement = true := isStatement_iff.2 ⟨hc, hf⟩
      cases h1 : line.isDirective .start with
      | true => exact .inr (.inr (.inl rfl))
      | false =>
        cases h2 : line.isDirective .finish with
        | true => exact .inr (.inr (.inr (.inl rfl)))
        | false =>
          cases h3 : line.isDirective .base with
          | true => exact .inr (.inr (.inr (.inr (.inl rfl))))
          | false =>
            exact .inr (.inr (.inr (.inr (.inr ((definesLabel_iff hs).2 ⟨h1, h2, h3⟩)))))
    · exact .inr (.inl ⟨rfl, by omega⟩)

end Text

namespace Layout

/-! ## The layout after a line, by its kind -/

section
variable (layout : Layout) {line : Text}

/-- The record of the next statement, before anything is found out about it. -/
def statementRecord (layout : Layout) (line : Text) : Record :=
  { layout.nextRecord line with statement := .ofLine line }

/-- Content and extent of a statement that takes up storage. -/
def extentAt (mode : Mode) (line : Text) : Content × Extent :=
  extentOf mode (Statement.ofLine line) (Directive.ofKeyword? (Statement.ofLine line).mnemonic)

/-- Whether a statement is the first to end beyond the memory. -/
def exceeds (layout : Layout) (line : Text) : Bool :=
  layout.mode.memorySize < layout.counter + (extentAt layout.mode line).2.width &&
    !layout.oversized

/-- The record of a statement that takes up storage, without its faults. -/
def storageBase (layout : Layout) (line : Text) : Record :=
  { layout.statementRecord line with
    content := (extentAt layout.mode line).1
    width := (extentAt layout.mode line).2.width }

/-- The record of a statement that takes up storage. -/
def storageRecord (layout : Layout) (line : Text) : Record :=
  let base := layout.storageBase line
  let label := (Statement.ofLine line).label
  { base with
    faults :=
      (if (defineLabel layout.symbols label layout.counter).2 then
        [base.faultAt label (.duplicateLabel label)] else []) ++
      (statementFault? base (extentAt layout.mode line).2).toList ++
      if layout.exceeds line then
        [⟨⟨base.line, 1⟩, .oversized layout.mode.memorySize
          (layout.counter + (extentAt layout.mode line).2.width)⟩] else [] }

@[simp] theorem statementRecord_statement :
    (layout.statementRecord line).statement = .ofLine line := rfl

theorem pushLine_comment (h : line.isComment = true) :
    layout.pushLine line = layout.push (layout.nextRecord line) := by
  simp [pushLine, h]

theorem pushLine_overfull (hc : line.isComment = false)
    (hf : Statement.maxFields < line.fields.length) :
    layout.pushLine line = push { layout with started := true }
      { layout.statementRecord line with
        content := .overfull
        faults := [⟨⟨(layout.nextRecord line).line, 1⟩,
          .tooManyFields Statement.maxFields line.fields.length⟩] } := by
  simp [pushLine, hc, Nat.not_le.2 hf, statementRecord, Statement.ofLine]

theorem pushLine_statement (h : line.isStatement = true) :
    layout.pushLine line = layout.pushStatement (layout.statementRecord line) := by
  obtain ⟨hc, hf⟩ := Text.isStatement_iff.1 h
  simp [pushLine, hc, hf, statementRecord, Statement.ofLine]

theorem pushLine_start (h : line.isDirective .start = true) :
    layout.pushLine line = layout.pushStart (layout.statementRecord line) := by
  have hs := Text.isStatement_of_isDirective h
  rw [pushLine_statement layout hs, pushStatement]
  simp only [statementRecord, (Text.isDirective_iff hs).1 h]

/-- The directive that starts a program, behind a statement, adds a record with a fault and changes
nothing else. -/
theorem pushLine_misplaced (h : line.isDirective .start = true) (hs : layout.started = true) :
    layout.pushLine line = layout.push
      { layout.statementRecord line with
        content := .directive .start
        faults := [(layout.statementRecord line).faultAt (Statement.ofLine line).mnemonic
          (.misplacedDirective (Statement.ofLine line).mnemonic)] } := by
  rw [pushLine_start layout h, pushStart]
  simp only [hs, ↓reduceIte]
  rfl

/-- The directive that starts a program, in front of all statements: start and counter are set to
the address that the operand gives, or else to zero. -/
theorem pushLine_begins (h : line.isDirective .start = true) (hs : layout.started = false) :
    layout.pushLine line = push
      { layout with
        started := true
        name := (Statement.ofLine line).label
        start := (startAddress? layout.mode (Statement.ofLine line).operand).getD 0
        counter := (startAddress? layout.mode (Statement.ofLine line).operand).getD 0 }
      { layout.statementRecord line with
        content := .directive .start
        address := (startAddress? layout.mode (Statement.ofLine line).operand).getD 0
        faults :=
          if (startAddress? layout.mode (Statement.ofLine line).operand).isSome then []
          else [(layout.statementRecord line).faultAt (Statement.ofLine line).operand
            (.invalidOperand (Statement.ofLine line).operand .startNotHexadecimal)] } := by
  rw [pushLine_start layout h, pushStart]
  simp only [hs, Bool.false_eq_true, ↓reduceIte, statementRecord_statement]
  cases startAddress? layout.mode (Statement.ofLine line).operand <;> rfl

theorem pushLine_finish (h : line.isDirective .finish = true) :
    layout.pushLine line =
      push
        { layout with
          started := true, finished := true, entryLabel := (Statement.ofLine line).operand }
        { layout.statementRecord line with content := .directive .finish } := by
  have hs := Text.isStatement_of_isDirective h
  rw [pushLine_statement layout hs, pushStatement]
  simp only [statementRecord, (Text.isDirective_iff hs).1 h]

theorem pushLine_base (h : line.isDirective .base = true) :
    layout.pushLine line =
      push { layout with started := true }
        { layout.statementRecord line with content := .directive .base } := by
  have hs := Text.isStatement_of_isDirective h
  rw [pushLine_statement layout hs, pushStatement]
  simp only [statementRecord, (Text.isDirective_iff hs).1 h]

theorem pushLine_storage (h : line.definesLabel = true) :
    layout.pushLine line = push
      { layout with
        started := true
        symbols := (defineLabel layout.symbols (Statement.ofLine line).label layout.counter).1
        counter := layout.counter + (extentAt layout.mode line).2.width
        oversized := layout.oversized || layout.exceeds line }
      (layout.storageRecord line) := by
  have hs := Text.isStatement_of_definesLabel h
  obtain ⟨h1, h2, h3⟩ := (Text.definesLabel_iff hs).1 h
  rw [← Bool.not_eq_true, Text.isDirective_iff hs] at h1 h2 h3
  rw [pushLine_statement layout hs, pushStatement]
  -- `h1`, `h2` and `h3` exclude the branches before the last
  simp only [statementRecord]
  rfl

end

/-! ## What all kinds of lines have in common -/

/-- Whether a line begins the program: it is the directive for that, and no statement came
before. -/
def begins (layout : Layout) (line : Text) : Bool := !layout.started && line.isDirective .start

/-- The width that a line takes up. -/
def widthOf (mode : Mode) (line : Text) : UInt32 :=
  if line.definesLabel then (extentAt mode line).2.width else 0

/-- What a line is, by its text alone. -/
def contentOf (mode : Mode) (line : Text) : Content :=
  if line.isComment then .comment
  else if Statement.maxFields < line.fields.length then .overfull
  else (extentAt mode line).1

/-- The faults of a line in a layout. -/
def lineFaults (layout : Layout) (line : Text) : List Fault :=
  if line.isComment then []
  else if Statement.maxFields < line.fields.length then
    [⟨⟨(layout.nextRecord line).line, 1⟩,
      .tooManyFields Statement.maxFields line.fields.length⟩]
  else if line.isDirective .start then
    if layout.started then
      [(layout.statementRecord line).faultAt (Statement.ofLine line).mnemonic
        (.misplacedDirective (Statement.ofLine line).mnemonic)]
    else if (startAddress? layout.mode (Statement.ofLine line).operand).isSome then []
    else
      [(layout.statementRecord line).faultAt (Statement.ofLine line).operand
        (.invalidOperand (Statement.ofLine line).operand .startNotHexadecimal)]
  else if line.isDirective .finish || line.isDirective .base then []
  else (layout.storageRecord line).faults

/-- A layout and the next one, after a line for which it got the given record. -/
structure Step (layout : Layout) (line : Text) (record : Record) (next : Layout) : Prop where
  mode : next.mode = layout.mode
  records : next.records = layout.records.push record
  faults : next.faults = layout.faults ++ record.faults.toArray
  found : record.faults = layout.lineFaults line
  number : record.line = layout.records.size + 1
  source : record.source = line
  content : record.content = contentOf layout.mode line
  statement : record.statement = if line.isComment then {} else .ofLine line
  width : record.width = widthOf layout.mode line
  object : record.object = []
  address : record.address = if layout.begins line then next.start else layout.counter
  counter : next.counter = record.address + record.width
  start : next.start =
    if layout.begins line then
      (startAddress? layout.mode (Statement.ofLine line).operand).getD 0
    else layout.start
  name : next.name = if layout.begins line then (Statement.ofLine line).label else layout.name
  entryLabel : next.entryLabel =
    if line.isDirective .finish then (Statement.ofLine line).operand else layout.entryLabel
  started : next.started = (layout.started || !line.isComment)
  finished : next.finished = (layout.finished || line.isDirective .finish)
  oversized : next.oversized =
    (layout.oversized || (line.definesLabel && layout.exceeds line))
  symbols : next.symbols =
    if line.definesLabel then
      (defineLabel layout.symbols (Statement.ofLine line).label layout.counter).1
    else layout.symbols
  misplaced : line.isDirective .start = true → layout.started = true → next = layout.push record

section
variable (layout : Layout) {line : Text}

/-- A line that neither begins the program nor takes up storage: the record gets the counter as its
address and no width, and start, name, counter and labels stay. -/
private theorem step_quiet {next : Layout} (hb : layout.begins line = false)
    (hl : line.definesLabel = false) {content : Content} {statement : Statement}
    {faults : List Fault} {started finished : Bool} {entryLabel : Text}
    (hn : next = push { layout with started, finished, entryLabel }
      { layout.nextRecord line with content, statement, faults })
    (hcontent : content = contentOf layout.mode line)
    (hstatement : statement = if line.isComment then {} else .ofLine line)
    (hfaults : faults = layout.lineFaults line)
    (hstarted : started = (layout.started || !line.isComment))
    (hfinished : finished = (layout.finished || line.isDirective .finish))
    (hentry : entryLabel =
      if line.isDirective .finish then (Statement.ofLine line).operand else layout.entryLabel) :
    ∃ record, Step layout line record next := by
  subst hn
  exact ⟨_, {
    mode := rfl, records := rfl, faults := rfl, number := rfl, source := rfl, object := rfl
    content := hcontent
    statement := hstatement
    found := hfaults
    started := hstarted
    finished := hfinished
    entryLabel := hentry
    width := by simp [nextRecord, widthOf, hl]
    address := by simp [nextRecord, hb]
    counter := by simp [push, nextRecord]
    start := by simp [push, hb]
    name := by simp [push, hb]
    oversized := by simp [push, hl]
    symbols := by simp [push, hl]
    misplaced := fun h hs => by
      have hf := Text.isDirective_eq_false h (show Directive.start ≠ .finish by decide)
      simp only [hs, hf, Bool.true_or, Bool.or_false, Bool.false_eq_true, ↓reduceIte]
        at hstarted hfinished hentry
      subst hstarted hfinished hentry
      rw [← hs] }⟩

private theorem step_comment (h : line.isComment = true) :
    ∃ record, Step layout line record (layout.pushLine line) := by
  have hs : line.isStatement = false := by simp [Text.isStatement, h]
  have hd := Text.isDirective_of_not_isStatement hs
  exact step_quiet layout (by simp [begins, hd]) (Text.definesLabel_of_not_isStatement hs)
    (pushLine_comment layout h) (by simp [contentOf, h]) (by simp [h]) (by simp [lineFaults, h])
    (by simp [h]) (by simp [hd]) (by simp [hd])

private theorem step_overfull (hc : line.isComment = false)
    (hf : Statement.maxFields < line.fields.length) :
    ∃ record, Step layout line record (layout.pushLine line) := by
  have hs : line.isStatement = false := by simp [Text.isStatement, hc, hf]
  have hd := Text.isDirective_of_not_isStatement hs
  exact step_quiet layout (by simp [begins, hd]) (Text.definesLabel_of_not_isStatement hs)
    (pushLine_overfull layout hc hf) (by simp [contentOf, hc, hf]) (by simp [hc])
    (by simp [lineFaults, hc, hf]) (by simp [hc]) (by simp [hd]) (by simp [hd])

/-- The content of a directive that takes up no storage. -/
theorem contentOf_directive {mode : Mode} {directive : Directive}
    (h : line.isDirective directive = true)
    (hd : directive = .start ∨ directive = .finish ∨ directive = .base) :
    contentOf mode line = .directive directive := by
  have hs := Text.isStatement_of_isDirective h
  obtain ⟨hc, hf⟩ := Text.isStatement_iff.1 hs
  rw [contentOf, extentAt, (Text.isDirective_iff hs).1 h]
  rcases hd with rfl | rfl | rfl <;> simp [hc, Nat.not_lt.2 hf, extentOf]

/-- **A line with an instruction** has the mnemonic of that instruction. -/
theorem opcode_contentOf {mode : Mode} {opcode : Opcode}
    (h : contentOf mode line = .instruction opcode) :
    line.isComment = false ∧ mode.opcode? (Statement.ofLine line).mnemonic = some opcode := by
  unfold contentOf at h
  split at h
  case isTrue => cases h
  case isFalse hcomment =>
  split at h
  case isTrue => cases h
  case isFalse hfields =>
  refine ⟨Bool.not_eq_true _ ▸ hcomment, ?_⟩
  rw [extentAt] at h
  cases hd : Directive.ofKeyword? (Statement.ofLine line).mnemonic with
  | some directive =>
    rw [hd] at h
    cases directive <;> cases h
  | none =>
    rw [hd, extentOf] at h
    cases ho : mode.opcode? (Statement.ofLine line).mnemonic with
    | none =>
      rw [ho] at h
      cases h
    | some found =>
      rw [ho] at h
      cases h
      rfl

theorem definesLabel_directive {directive : Directive}
    (h : line.isDirective directive = true)
    (hd : directive = .start ∨ directive = .finish ∨ directive = .base) :
    line.definesLabel = false := by
  rcases hd with rfl | rfl | rfl <;> simp [Text.definesLabel, h]

private theorem step_finish (h : line.isDirective .finish = true) :
    ∃ record, Step layout line record (layout.pushLine line) := by
  obtain ⟨hc, hm⟩ := Text.isStatement_iff.1 (Text.isStatement_of_isDirective h)
  have h1 := Text.isDirective_eq_false h (show Directive.finish ≠ .start by decide)
  exact step_quiet layout (by simp [begins, h1]) (definesLabel_directive h (by simp))
    (pushLine_finish layout h) (contentOf_directive h (by simp)).symm (by simp [hc])
    (by simp [lineFaults, hc, Nat.not_lt.2 hm, h1, h]; rfl) (by simp [hc]) (by simp [h])
    (by simp [h])

private theorem step_base (h : line.isDirective .base = true) :
    ∃ record, Step layout line record (layout.pushLine line) := by
  obtain ⟨hc, hm⟩ := Text.isStatement_iff.1 (Text.isStatement_of_isDirective h)
  have h1 := Text.isDirective_eq_false h (show Directive.base ≠ .start by decide)
  have h2 := Text.isDirective_eq_false h (show Directive.base ≠ .finish by decide)
  exact step_quiet layout (by simp [begins, h1]) (definesLabel_directive h (by simp))
    (pushLine_base layout h) (contentOf_directive h (by simp)).symm (by simp [hc])
    (by simp [lineFaults, hc, Nat.not_lt.2 hm, h1, h]; rfl) (by simp [hc]) (by simp [h2])
    (by simp [h2])

/-- The directive that starts a program: behind a statement it is a quiet line; else it sets start
and counter to the same address, which is zero if the operand gives none. -/
private theorem step_start (h : line.isDirective .start = true) :
    ∃ record, Step layout line record (layout.pushLine line) := by
  obtain ⟨hc, hm⟩ := Text.isStatement_iff.1 (Text.isStatement_of_isDirective h)
  have hf := Text.isDirective_eq_false h (show Directive.start ≠ .finish by decide)
  have hl := definesLabel_directive h (by simp)
  have hk : contentOf layout.mode line = .directive .start := contentOf_directive h (by simp)
  cases hs : layout.started with
  | true =>
    exact step_quiet layout (by simp [begins, hs]) hl (pushLine_misplaced layout h hs) hk.symm
      (by simp [hc]) (by simp [lineFaults, hc, Nat.not_lt.2 hm, h, hs]) (by simp [hs])
      (by simp [hf]) (by simp [hf])
  | false =>
    have hb : layout.begins line = true := by simp [begins, hs, h]
    rw [pushLine_begins layout h hs]
    exact ⟨_, {
      mode := rfl, records := rfl, faults := rfl, number := rfl, source := rfl, object := rfl
      content := hk.symm
      found := by simp [lineFaults, hc, Nat.not_lt.2 hm, h, hs]
      statement := by simp [hc]
      width := by simp [statementRecord, nextRecord, widthOf, hl]
      address := by simp [push, hb]
      counter := by simp [push, statementRecord, nextRecord]
      start := by simp [push, hb]
      name := by simp [push, hb]
      entryLabel := by simp [push, hf]
      started := by simp [push, hc]
      finished := by simp [push, hf]
      oversized := by simp [push, hl]
      symbols := by simp [push, hl]
      misplaced := fun _ h => by simp [hs] at h }⟩

private theorem step_storage (h : line.definesLabel = true) :
    ∃ record, Step layout line record (layout.pushLine line) := by
  have hs := Text.isStatement_of_definesLabel h
  obtain ⟨hc, hm⟩ := Text.isStatement_iff.1 hs
  obtain ⟨h1, h2, h3⟩ := (Text.definesLabel_iff hs).1 h
  have hb : layout.begins line = false := by simp [begins, h1]
  rw [pushLine_storage layout h]
  exact ⟨layout.storageRecord line, {
    mode := rfl, records := rfl, faults := rfl, number := rfl, source := rfl, object := rfl
    content := by simp [storageRecord, storageBase, contentOf, hc, Nat.not_lt.2 hm]
    found := by simp [lineFaults, hc, Nat.not_lt.2 hm, h1, h2, h3]
    statement := by simp [storageRecord, storageBase, hc]
    width := by simp [storageRecord, storageBase, widthOf, h]
    address := by simp [storageRecord, storageBase, statementRecord, nextRecord, hb]
    counter := by simp [push, storageRecord, storageBase, statementRecord, nextRecord]
    start := by simp [push, hb]
    name := by simp [push, hb]
    entryLabel := by simp [push, h2]
    started := by simp [push, hc]
    finished := by simp [push, h2]
    oversized := by simp [push, h]
    symbols := by simp [push, h]
    misplaced := fun h => by simp [h1] at h }⟩

/-- **One line of a layout**, whatever its kind. -/
theorem pushLine_step (line : Text) : ∃ record, Step layout line record (layout.pushLine line) := by
  rcases Text.line_cases line with h | ⟨hc, hf⟩ | h | h | h | h
  · exact step_comment layout h
  · exact step_overfull layout hc hf
  · exact step_start layout h
  · exact step_finish layout h
  · exact step_base layout h
  · exact step_storage layout h

end

/-! ## Whole runs -/

/-- The lines of a program: those up to the first that ends it, and this one. -/
def toEnd (lines : List Text) : List Text :=
  lines.take ((lines.findIdx? (·.isDirective .finish)).elim lines.length (· + 1))

theorem toEnd_cons_of_finish {line : Text} (h : line.isDirective .finish = true)
    (lines : List Text) : toEnd (line :: lines) = [line] := by
  simp [toEnd, List.findIdx?_cons, h]

theorem toEnd_cons {line : Text} (h : line.isDirective .finish = false) (lines : List Text) :
    toEnd (line :: lines) = line :: toEnd lines := by
  simp only [toEnd, List.findIdx?_cons, h, Bool.false_eq_true, ↓reduceIte, List.length_cons]
  cases lines.findIdx? (·.isDirective .finish) <;> simp

theorem pushLines_of_finished {layout : Layout} (h : layout.finished = true) :
    ∀ lines, layout.pushLines lines = layout
  | [] => rfl
  | _ :: _ => by simp [pushLines, h]

theorem pushLines_append : ∀ (layout : Layout) (before after : List Text),
    layout.pushLines (before ++ after) = (layout.pushLines before).pushLines after
  | _, [], _ => rfl
  | layout, line :: before, after => by
    cases h : layout.finished with
    | true => simp only [pushLines_of_finished h]
    | false =>
      simp only [List.cons_append, pushLines, h, Bool.false_eq_true, ↓reduceIte]
      exact pushLines_append _ before after

/-- What holds of a layout after the lines `done` and is kept by every step holds after the lines
up to the end. -/
theorem pushLines_induction {P : List Text → Layout → Prop}
    (step : ∀ done layout line record, layout.finished = false → P done layout →
      Step layout line record (layout.pushLine line) → P (done ++ [line]) (layout.pushLine line)) :
    ∀ (lines done : List Text) (layout : Layout), layout.finished = false → P done layout →
      P (done ++ toEnd lines) (layout.pushLines lines)
  | [], done, layout, _, h => by simpa [toEnd, pushLines] using h
  | line :: lines, done, layout, hf, h => by
    obtain ⟨record, hstep⟩ := layout.pushLine_step line
    have hnext := step done layout line record hf h hstep
    have hfin : (layout.pushLine line).finished = line.isDirective .finish := by
      rw [hstep.finished, hf, Bool.false_or]
    simp only [pushLines, hf, Bool.false_eq_true, ↓reduceIte]
    cases he : line.isDirective .finish with
    | true =>
      rw [toEnd_cons_of_finish he, pushLines_of_finished (hfin.trans he)]
      exact hnext
    | false =>
      rw [toEnd_cons he, List.append_cons]
      exact pushLines_induction step lines (done ++ [line]) _ (hfin.trans he) hnext

end Layout

theorem SymbolTable.foldl_erase_entries (erased : List (Text × UInt32)) :
    ∀ table : SymbolTable,
      (erased.foldl (fun rest entry => rest.erase entry.1) table).entries =
        table.entries.filter fun entry => erased.all (·.1 != entry.1) := by
  induction erased with
  | nil => intro table; exact (List.filter_eq_self.2 fun _ _ => rfl).symm
  | cons entry erased ih =>
    intro table
    rw [List.foldl_cons, ih, erase, List.filter_filter]
    refine List.filter_congr fun other _ => ?_
    simp only [List.all_cons, bne_comm (a := other.1)]
    exact Bool.and_comm ..

/-- A cleared table has no label, whatever it had before. -/
theorem SymbolTable.cleared_eq_empty (table : SymbolTable) : table.cleared = .empty := by
  have h : table.cleared.entries = [] := by
    rw [cleared, foldl_erase_entries, List.filter_eq_nil_iff]
    intro entry he hall
    simpa using List.all_eq_true.1 hall entry he
  exact congrArg SymbolTable.mk h

/-- **Induction over a layout**: what holds of the empty layout and is kept by every step holds of
the layout of a program, for the lines up to its end and whatever labels the symbol table had. -/
theorem Layout.ofLines_induction {mode : Mode} {P : List Text → Layout → Prop}
    (base : P [] { mode })
    (step : ∀ done layout line record, layout.finished = false → P done layout →
      Step layout line record (layout.pushLine line) → P (done ++ [line]) (layout.pushLine line))
    (lines : List Text) (symbols : SymbolTable) :
    P (toEnd lines) (Layout.ofLines mode lines symbols) := by
  rw [Layout.ofLines, symbols.cleared_eq_empty]
  exact pushLines_induction step lines [] { mode } rfl base

end SicXe
