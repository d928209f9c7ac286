import SicXe.Proofs.FaultReports
import SicXe.Report.ObjectProgram

/-!
# Assemblies and the tokens of their lines

The assembly of a program depends on the fields of its statements only: not on the blanks between
them, not on comments, and not on what stands behind the end.

* `Text.isComment_eq_isRemark`: whether a line is a comment can be told from its fields.
* `tokens`: the fields of the statements up to the end of the program.
* `Record.essence`, `Layout.essence`: what is left without comments and places in the source.
  `Layout.Alike.pushLine` and `ObjectCode.Alike.pushRecord` say that a step depends on nothing else,
  and the lemmas on comments that they change nothing of it.
* `Assembly.essence_of_tokens`: the same tokens make the same assembly.
-/

namespace SicXe

/-! ## Comments by their fields -/

namespace Text

/-- Whether fields are those of a comment: there are none, or the first begins with a period. -/
def isRemark : List Text → Bool
  | [] => true
  | field :: _ => field.head? == some commentMarker

theorem Fields.close_push_of_isBlank {g : Glyph} (h : g.isBlank = true) (f : Fields) :
    (Fields.push g f).close = f.close := by
  simp [Fields.push, h, Fields.close]

theorem close_foldr_dropWhile (gs : List Glyph) :
    ((gs.dropWhile Glyph.isBlank).foldr Fields.push ⟨[], []⟩).close =
      (gs.foldr Fields.push ⟨[], []⟩).close := by
  induction gs with
  | nil => rfl
  | cons g gs ih =>
    rw [List.dropWhile_cons]
    split
    case isTrue hblank => rw [ih, List.foldr_cons, Fields.close_push_of_isBlank hblank]
    case isFalse => rfl

/-- **A comment is told from its fields**: both readings of a line skip the same blanks. -/
theorem isComment_eq_isRemark (line : Text) : line.isComment = isRemark line.fields := by
  rw [isComment, trimStart, fields, ← close_foldr_dropWhile]
  have hhead := List.head?_dropWhile_not Glyph.isBlank line.glyphs
  cases hglyphs : line.glyphs.dropWhile Glyph.isBlank with
  | nil => rfl
  | cons g gs =>
    rw [hglyphs] at hhead
    have hblank : g.isBlank = false := by simpa using hhead
    obtain ⟨b, bytes, hbytes⟩ := List.exists_cons_of_ne_nil g.bytes_ne_nil
    rw [List.flatMap_cons, hbytes, List.foldr_cons, Fields.push, hblank, hbytes]
    rfl

section
variable {line line' : Text} (h : line.fields = line'.fields)
include h

theorem isComment_congr : line.isComment = line'.isComment := by
  rw [isComment_eq_isRemark, isComment_eq_isRemark, h]

theorem ofLine_congr : Statement.ofLine line = Statement.ofLine line' := by
  rw [Statement.ofLine, Statement.ofLine, h]

theorem isStatement_congr : line.isStatement = line'.isStatement := by
  rw [isStatement, isStatement, isComment_congr h, h]

theorem isDirective_congr (directive : Directive) :
    line.isDirective directive = line'.isDirective directive := by
  rw [isDirective, isDirective, isStatement_congr h, ofLine_congr h]

theorem definesLabel_congr : line.definesLabel = line'.definesLabel := by
  simp only [definesLabel, isStatement_congr h, isDirective_congr h]

end

end Text

/-! ## Tokens -/

/-- The elements up to the first with the given property, and this one. -/
def throughFirst {α : Type} (p : α → Bool) : List α → List α
  | [] => []
  | a :: rest => if p a then [a] else a :: throughFirst p rest

/-- Whether fields are those of the directive that ends a program. -/
def isEnding (fields : List Text) : Bool :=
  decide (fields.length ≤ Statement.maxFields) &&
    (Statement.ofFields fields).mnemonic == Directive.keyword .finish

/-- The fields of the statements of a program, from the first line to its end. -/
def tokens (lines : List Text) : List (List Text) :=
  throughFirst isEnding ((lines.map Text.fields).filter (!Text.isRemark ·))

theorem tokens_eq (lines : List Text) :
    tokens lines = throughFirst isEnding ((lines.filter (!·.isComment)).map Text.fields) := by
  rw [tokens, List.filter_map]
  simp only [Text.isComment_eq_isRemark]
  rfl

theorem isDirective_finish_eq {line : Text} (h : line.isComment = false) :
    line.isDirective .finish = isEnding line.fields := by
  simp [Text.isDirective, Text.isStatement, h, isEnding, Statement.ofLine]

/-! ## What is left without comments and places -/

/-- The fault without its place. -/
def Fault.essence (fault : Fault) : Fault := { fault with position := ⟨0, 0⟩ }

/-- The record without its place in the source and its text. -/
def Record.essence (record : Record) : Record :=
  { record with line := 0, source := [], faults := record.faults.map Fault.essence }

/-- The records that are no comments, without their places. -/
def essences (records : List Record) : List Record :=
  (records.filter (·.content != .comment)).map Record.essence

@[simp] theorem Record.essence_faultAt (record : Record) (field : Text) (cause : Cause) :
    (record.faultAt field cause).essence = ⟨⟨0, 0⟩, cause⟩ := rfl

@[simp] theorem Record.essence_essence (record : Record) :
    record.essence.essence = record.essence := by
  simp [Record.essence, Fault.essence, Function.comp_def]

theorem essences_concat (records : List Record) (record : Record) :
    essences (records ++ [record]) =
      essences records ++ if record.content = .comment then [] else [record.essence] := by
  by_cases h : record.content = .comment <;> simp [essences, List.filter_append, h]

namespace Layout

/-- The layout without comments and places. -/
def essence (layout : Layout) : Layout :=
  { layout with
    records := (essences layout.records.toList).toArray
    faults := layout.faults.map Fault.essence }

variable {layout layout' : Layout} {line line' : Text}

/-- Two layouts that differ in comments and places only. -/
structure Alike (layout layout' : Layout) : Prop where
  mode : layout.mode = layout'.mode
  name : layout.name = layout'.name
  start : layout.start = layout'.start
  counter : layout.counter = layout'.counter
  entryLabel : layout.entryLabel = layout'.entryLabel
  started : layout.started = layout'.started
  oversized : layout.oversized = layout'.oversized
  finished : layout.finished = layout'.finished
  symbols : layout.symbols = layout'.symbols
  records : essences layout.records.toList = essences layout'.records.toList
  faults : layout.faults.toList.map Fault.essence = layout'.faults.toList.map Fault.essence

theorem essence_eq_iff : layout.essence = layout'.essence ↔ Alike layout layout' := by
  constructor
  · intro h
    simp only [essence, Layout.mk.injEq, ← Array.toList_inj, Array.toList_map] at h
    obtain ⟨hmode, hname, hstart, hcounter, hentry, hstarted, hoversized, hfinished, hsymbols,
      hrecords, hfaults⟩ := h
    exact ⟨hmode, hname, hstart, hcounter, hentry, hstarted, hoversized, hfinished, hsymbols,
      hrecords, hfaults⟩
  · intro h
    simp only [essence, Layout.mk.injEq, ← Array.toList_inj, Array.toList_map]
    exact ⟨h.mode, h.name, h.start, h.counter, h.entryLabel, h.started, h.oversized, h.finished,
      h.symbols, h.records, h.faults⟩

theorem extentAt_congr (h : line.fields = line'.fields) (mode : Mode) :
    extentAt mode line = extentAt mode line' := by
  rw [extentAt, extentAt, Text.ofLine_congr h]

theorem contentOf_congr (h : line.fields = line'.fields) (mode : Mode) :
    contentOf mode line = contentOf mode line' := by
  rw [contentOf, contentOf, Text.isComment_congr h, h, extentAt_congr h]

theorem widthOf_congr (h : line.fields = line'.fields) (mode : Mode) :
    widthOf mode line = widthOf mode line' := by
  rw [widthOf, widthOf, Text.definesLabel_congr h, extentAt_congr h]

theorem contentOf_ne_comment (mode : Mode) (h : line.isComment = false) :
    contentOf mode line ≠ .comment := by
  rw [contentOf, if_neg (Bool.eq_false_iff.1 h)]
  split
  · intro hc
    cases hc
  · rw [extentAt]
    unfold extentOf
    split <;> try (intro hc; cases hc)
    split <;> intro hc <;> cases hc

/-- The fault of a statement by itself, but for its place, is that of its content and fields. -/
theorem essence_statementFault? {record record' : Record}
    (hcontent : record.content = record'.content)
    (hstatement : record.statement = record'.statement) (extent : Extent) :
    (statementFault? record extent).map Fault.essence =
      (statementFault? record' extent).map Fault.essence := by
  unfold statementFault?
  rw [hcontent, hstatement]
  dsimp only
  split
  · rfl
  · cases extent.flaw <;> rfl

section
variable (hl : Alike layout layout') (h : line.fields = line'.fields)
include hl h

theorem exceeds_congr : layout.exceeds line = layout'.exceeds line' := by
  rw [exceeds, exceeds, hl.mode, hl.counter, hl.oversized, extentAt_congr h]

theorem begins_congr : layout.begins line = layout'.begins line' := by
  rw [begins, begins, hl.started, Text.isDirective_congr h]

theorem essence_storageFaults :
    (layout.storageRecord line).faults.map Fault.essence =
      (layout'.storageRecord line').faults.map Fault.essence := by
  have hextent := extentAt_congr h layout'.mode
  have hstatement := Text.ofLine_congr h
  have hcontent : (layout.storageBase line).content = (layout'.storageBase line').content := by
    rw [storageBase, storageBase, hl.mode, hextent]
  simp only [storageRecord, List.map_append, hl.mode, hl.counter, hl.symbols, hextent, hstatement,
    exceeds_congr hl h]
  refine congrArg₂ (· ++ ·) (congrArg₂ (· ++ ·) ?_ ?_) ?_
  · split <;> rfl
  · rw [← Option.toList_map, ← Option.toList_map, essence_statementFault? hcontent hstatement]
  · split <;> rfl

theorem essence_lineFaults :
    (layout.lineFaults line).map Fault.essence = (layout'.lineFaults line').map Fault.essence := by
  unfold lineFaults
  rw [Text.isComment_congr h, h, Text.isDirective_congr h, Text.isDirective_congr h,
    Text.isDirective_congr h, hl.started, hl.mode, Text.ofLine_congr h]
  split
  · rfl
  split
  · rfl
  split
  · split
    · rfl
    · split <;> rfl
  split
  · rfl
  · exact essence_storageFaults hl h

/-- **A statement** is laid out by its fields, as far as comments and places do not matter. -/
theorem Alike.pushLine (hc : line.isComment = false) :
    Alike (layout.pushLine line) (layout'.pushLine line') := by
  obtain ⟨record, step⟩ := layout.pushLine_step line
  obtain ⟨record', step'⟩ := layout'.pushLine_step line'
  have hc' := (Text.isComment_congr h).symm.trans hc
  have hstatement := Text.ofLine_congr h
  have hstart : (layout.pushLine line).start = (layout'.pushLine line').start := by
    rw [step.start, step'.start, begins_congr hl h, hl.mode, hstatement, hl.start]
  have haddress : record.address = record'.address := by
    rw [step.address, step'.address, begins_congr hl h, hstart, hl.counter]
  have hwidth : record.width = record'.width := by
    rw [step.width, step'.width, hl.mode, widthOf_congr h]
  have hcontent : record.content = record'.content := by
    rw [step.content, step'.content, hl.mode, contentOf_congr h]
  have hfound : record.faults.map Fault.essence = record'.faults.map Fault.essence := by
    rw [step.found, step'.found, essence_lineFaults hl h]
  have hrecord : record.essence = record'.essence := by
    rw [Record.essence, Record.essence, Record.mk.injEq]
    refine ⟨rfl, rfl, hcontent, ?_, haddress, hwidth, ?_, hfound⟩
    · rw [step.statement, step'.statement, hc, hc', hstatement]
    · rw [step.object, step'.object]
  exact {
    start := hstart
    mode := by rw [step.mode, step'.mode, hl.mode]
    name := by rw [step.name, step'.name, begins_congr hl h, hstatement, hl.name]
    counter := by rw [step.counter, step'.counter, haddress, hwidth]
    entryLabel := by
      rw [step.entryLabel, step'.entryLabel, Text.isDirective_congr h, hstatement, hl.entryLabel]
    started := by rw [step.started, step'.started, hl.started, hc, hc']
    oversized := by
      rw [step.oversized, step'.oversized, hl.oversized, Text.definesLabel_congr h,
        exceeds_congr hl h]
    finished := by rw [step.finished, step'.finished, hl.finished, Text.isDirective_congr h]
    symbols := by
      rw [step.symbols, step'.symbols, Text.definesLabel_congr h, hl.symbols, hstatement,
        hl.counter]
    records := by
      rw [step.records, step'.records, Array.toList_push, Array.toList_push, essences_concat,
        essences_concat, hcontent, hrecord, hl.records]
    faults := by
      rw [step.faults, step'.faults, Array.toList_append, Array.toList_append, List.map_append,
        List.map_append, hl.faults, hfound] }

end

/-- **A comment** changes nothing of what is left of a layout. -/
theorem essence_pushLine_comment (hc : line.isComment = true) :
    (layout.pushLine line).essence = layout.essence := by
  rw [pushLine_comment layout hc]
  simp [essence, push, nextRecord, essences_concat]

theorem essence_pushLines_filter : ∀ (lines : List Text) (layout layout' : Layout),
    layout.essence = layout'.essence →
    (layout.pushLines lines).essence =
      (layout'.pushLines (lines.filter (!·.isComment))).essence
  | [], _, _, hl => hl
  | line :: lines, layout, layout', hl => by
    have hfinished := (essence_eq_iff.1 hl).finished
    cases hf : layout.finished with
    | true => rwa [pushLines_of_finished hf, pushLines_of_finished (hfinished.symm.trans hf)]
    | false =>
      rw [pushLines, hf, if_neg Bool.false_ne_true]
      cases hc : line.isComment with
      | true =>
        rw [List.filter_cons_of_neg (by simp [hc])]
        exact essence_pushLines_filter lines _ _ ((essence_pushLine_comment hc).trans hl)
      | false =>
        rw [List.filter_cons_of_pos (by simp [hc]), pushLines, ← hfinished, hf,
          if_neg Bool.false_ne_true]
        exact essence_pushLines_filter lines _ _
          (essence_eq_iff.2 ((essence_eq_iff.1 hl).pushLine rfl hc))

/-- Two programs without comments go the same way up to the end that their fields have in
common. -/
theorem Alike.pushLines : ∀ {lines lines' : List Text} {layout layout' : Layout},
    Alike layout layout' → layout.finished = false →
    (∀ line ∈ lines, line.isComment = false) →
    throughFirst isEnding (lines.map Text.fields) =
      throughFirst isEnding (lines'.map Text.fields) →
    Alike (layout.pushLines lines) (layout'.pushLines lines')
  | [], [], _, _, hl, _, _, _ => hl
  | [], line' :: lines', _, _, _, _, _, h => by
    simp only [List.map_nil, List.map_cons, throughFirst] at h
    split at h <;> cases h
  | line :: lines, [], _, _, _, _, _, h => by
    simp only [List.map_nil, List.map_cons, throughFirst] at h
    split at h <;> cases h
  | line :: lines, line' :: lines', layout, layout', hl, hf, hc, h => by
    have hline := hc line List.mem_cons_self
    have hfields : line.fields = line'.fields := by
      simp only [List.map_cons, throughFirst] at h
      split at h <;> split at h <;> exact (List.cons.inj h).1
    have hnext := hl.pushLine hfields hline
    obtain ⟨record, step⟩ := layout.pushLine_step line
    have hend : (layout.pushLine line).finished = isEnding line.fields := by
      rw [step.finished, hf, Bool.false_or, isDirective_finish_eq hline]
    rw [Layout.pushLines, Layout.pushLines, ← hl.finished, hf, if_neg Bool.false_ne_true,
      if_neg Bool.false_ne_true]
    rw [List.map_cons, List.map_cons, ← hfields, throughFirst, throughFirst] at h
    cases he : isEnding line.fields with
    | true =>
      rw [he] at hend
      rwa [pushLines_of_finished hend, pushLines_of_finished (hnext.finished.symm.trans hend)]
    | false =>
      rw [he, if_neg Bool.false_ne_true, if_neg Bool.false_ne_true] at h
      apply hnext.pushLines (hend.trans he)
      · intro other hother
        exact hc other (List.mem_cons_of_mem _ hother)
      · exact (List.cons.inj h).2

/-- **The layout without comments and places** is the same for the same tokens. -/
theorem alike_of_tokens {lines lines' : List Text} (h : tokens lines = tokens lines')
    (mode : Mode) : Alike (ofLines mode lines) (ofLines mode lines') := by
  rw [tokens_eq, tokens_eq] at h
  have hpure : ∀ line ∈ lines.filter (!·.isComment), line.isComment = false := by
    intro line hline
    simpa using (List.mem_filter.1 hline).2
  have halike : Alike (ofLines mode (lines.filter (!·.isComment)))
      (ofLines mode (lines'.filter (!·.isComment))) :=
    Alike.pushLines (essence_eq_iff.1 rfl) rfl hpure h
  apply essence_eq_iff.1
  calc (ofLines mode lines).essence
      = (ofLines mode (lines.filter (!·.isComment))).essence :=
        essence_pushLines_filter lines _ _ rfl
    _ = (ofLines mode (lines'.filter (!·.isComment))).essence := essence_eq_iff.2 halike
    _ = (ofLines mode lines').essence := (essence_pushLines_filter lines' _ _ rfl).symm

end Layout

/-! ## The second run -/

namespace ObjectCode

/-- Two runs that differ in comments and places only. -/
structure Alike (code code' : ObjectCode) : Prop where
  name : code.name = code'.name
  start : code.start = code'.start
  symbols : code.symbols = code'.symbols
  base : code.base = code'.base
  entry : code.entry = code'.entry
  records : essences code.records.toList = essences code'.records.toList
  faults : code.faults.toList.map Fault.essence = code'.faults.toList.map Fault.essence

section
variable {code code' : ObjectCode} (h : Alike code code') (record : Record)
include h

theorem finding?_congr : code.finding? record = code'.finding? record.essence := by
  simp only [finding?, locates, h.symbols, h.base, h.name]
  rfl

theorem bytesOf_congr : code.bytesOf record = code'.bytesOf record.essence := by
  rw [bytesOf, bytesOf, h.symbols, h.base]
  rfl

theorem essence_found :
    (code.found record).map Fault.essence = (code'.found record.essence).map Fault.essence := by
  rw [found, found, finding?_congr h]
  cases code'.finding? record.essence <;> rfl

theorem essence_settled :
    (code.settled record).essence = (code'.settled record.essence).essence := by
  have hfaults : (record.faults ++ code.found record).map Fault.essence =
      (record.essence.faults ++ code'.found record.essence).map Fault.essence := by
    rw [List.map_append, List.map_append, essence_found h]
    exact congrArg (· ++ _) (congrArg Record.faults record.essence_essence).symm
  rw [Record.essence, Record.essence, Record.mk.injEq]
  exact ⟨rfl, rfl, rfl, rfl, rfl, rfl, bytesOf_congr h record, hfaults⟩

/-- **A record** is settled by what it is apart from its place. -/
theorem Alike.pushRecord : Alike (code.pushRecord record) (code'.pushRecord record.essence) := by
  have step := code.pushRecord_settled record
  have step' := code'.pushRecord_settled record.essence
  exact {
    name := by rw [step.name, step'.name, h.name]
    start := by rw [step.start, step'.start, h.start]
    symbols := by rw [step.symbols, step'.symbols, h.symbols]
    base := by
      rw [← UInt32.toNat_inj, step.base, step'.base, h.symbols, h.base]
      rfl
    entry := by
      rw [step.entry, step'.entry, entryAfter, entryAfter, h.name, h.start, h.symbols, h.entry]
      rfl
    records := by
      rw [step.records, step'.records, Array.toList_push, Array.toList_push, essences_concat,
        essences_concat, h.records, essence_settled h]
      rfl
    faults := by
      rw [(code.records_pushRecord record).2, (code'.records_pushRecord record.essence).2,
        Array.toList_append, Array.toList_append, List.map_append, List.map_append, h.faults,
        essence_found h] }

/-- **A comment** changes nothing but the records. -/
theorem Alike.pushComment {record : Record} (hc : record.content = .comment) :
    Alike (code.pushRecord record) code' := by
  have hkeep : code.pushRecord record = code.keep record := by
    rw [ObjectCode.pushRecord, hc]
  rw [hkeep]
  refine ⟨h.name, h.start, h.symbols, h.base, h.entry, ?_, h.faults⟩
  rw [keep, Array.toList_push, essences_concat, if_pos hc, List.append_nil, h.records]

end

/-- A run depends on the records apart from comments and places. -/
theorem Alike.foldl (records : List Record) : ∀ {code code' : ObjectCode}, Alike code code' →
    Alike (records.foldl ObjectCode.pushRecord code)
      ((essences records).foldl ObjectCode.pushRecord code') := by
  induction records with
  | nil =>
    intro code code' h
    exact h
  | cons record records ih =>
    intro code code' h
    rw [List.foldl_cons]
    by_cases hc : record.content = .comment
    · have hskip : essences (record :: records) = essences records := by simp [essences, hc]
      rw [hskip]
      exact ih (h.pushComment hc)
    · have htake : essences (record :: records) = record.essence :: essences records := by
        simp [essences, hc]
      rw [htake, List.foldl_cons]
      exact ih (h.pushRecord record)

end ObjectCode

/-! ## Object programs -/

/-- Lines with neither bytes nor storage do not matter for the text records. -/
theorem textRecords_essences {records : List Record}
    (h : ∀ record ∈ records, record.content = .comment → record.object = [] ∧ record.width = 0) :
    textRecords (records.map Report.Line.ofRecord) =
      textRecords ((essences records).map Report.Line.ofRecord) := by
  have hfold : ∀ deck : TextDeck,
      (records.map Report.Line.ofRecord).foldl TextDeck.pushLine deck =
        ((essences records).map Report.Line.ofRecord).foldl TextDeck.pushLine deck := by
    induction records with
    | nil =>
      intro deck
      rfl
    | cons record records ih =>
      intro deck
      have hrest := ih fun other hother => h other (List.mem_cons_of_mem _ hother)
      rw [List.map_cons, List.foldl_cons]
      by_cases hc : record.content = .comment
      · obtain ⟨hobject, hwidth⟩ := h record List.mem_cons_self hc
        have hskip : essences (record :: records) = essences records := by simp [essences, hc]
        have hdeck : deck.pushLine (Report.Line.ofRecord record) = deck := by
          simp [TextDeck.pushLine, Report.Line.ofRecord, hobject, hwidth]
        rw [hskip, hdeck, hrest]
      · have htake : essences (record :: records) = record.essence :: essences records := by
          simp [essences, hc]
        rw [htake, List.map_cons, List.foldl_cons]
        exact hrest _
  rw [textRecords, textRecords, hfold]

theorem Report.objectProgram_congr {report report' : Report} (hname : report.name = report'.name)
    (hstart : report.start = report'.start) (hlength : report.length = report'.length)
    (hentry : report.entry = report'.entry) (hfree : report.errorFree = report'.errorFree)
    (hmessages : report.messages = [] ↔ report'.messages = [])
    (htext : textRecords report.lines = textRecords report'.lines) :
    report.objectProgram = report'.objectProgram := by
  rw [objectProgram, objectProgram, hname, hstart, hlength, hentry, hfree, htext]
  simp only [hmessages]

/-! ## Assemblies -/

namespace Assembly

/-- The assembly without comments and places in the source. -/
def essence (assembly : Assembly) : Assembly :=
  { assembly with
    program := { assembly.program with records := essences assembly.program.records }
    faults := assembly.faults.map Fault.essence }

variable {mode : Mode} {lines lines' : List Text}

/-- A comment of an assembly has neither bytes nor storage. -/
theorem comment_idle {record : Record} (h : record ∈ (ofLines mode lines).program.records)
    (hc : record.content = .comment) : record.object = [] ∧ record.width = 0 := by
  obtain ⟨k, hk⟩ := List.mem_iff_getElem?.1 h
  constructor
  · cases hfree : (ofLines mode lines).program.errorFree with
    | false => exact (early_of_faulty hfree).1 record h
    | true =>
      apply (record_outcome hfree hk).2.1
      rw [hc]
      rfl
  · obtain ⟨laid, hlaid, hbare⟩ := bare_mem_layout hk
    obtain ⟨-, step⟩ := Layout.record_step hlaid
    have hcontent : record.content = laid.content := (congrArg Record.content hbare :)
    have hwidth : record.width = laid.width := (congrArg Record.width hbare :)
    have hcomment : laid.source.isComment = true := by
      rw [← Bool.not_eq_false]
      intro hstatement
      apply Layout.contentOf_ne_comment _ hstatement
      rw [← step.content, ← hcontent, hc]
    have hlabel : laid.source.definesLabel = false := by
      simp [Text.definesLabel, Text.isStatement, hcomment]
    rw [hwidth, step.width, Layout.widthOf, hlabel]
    rfl

theorem errorFree_congr {layout layout' : Layout} (h : Layout.Alike layout layout') :
    layout.program.errorFree = layout'.program.errorFree := by
  have hsize := congrArg List.length h.faults
  rw [List.length_map, List.length_map, Array.length_toList, Array.length_toList] at hsize
  change decide (layout.faults.size = 0) = decide (layout'.faults.size = 0)
  rw [hsize]

/-- The second run over layouts that differ in comments and places only. -/
theorem codeOf_congr {layout layout' : Layout} (h : Layout.Alike layout layout') :
    (codeOf layout).entry = (codeOf layout').entry ∧
      essences (codeOf layout).records.toList = essences (codeOf layout').records.toList ∧
      (codeOf layout).faults.toList.map Fault.essence =
        (codeOf layout').faults.toList.map Fault.essence := by
  have hinit : ObjectCode.Alike
      { name := layout.name, start := layout.start, symbols := layout.symbols,
        entry := layout.start }
      { name := layout'.name, start := layout'.start, symbols := layout'.symbols,
        entry := layout'.start } :=
    ⟨h.name, h.start, h.symbols, rfl, h.start, rfl, rfl⟩
  have hrun := hinit.foldl layout.records.toList
  rw [h.records] at hrun
  have hrun' := ObjectCode.Alike.foldl layout'.records.toList
    (⟨rfl, rfl, rfl, rfl, rfl, rfl, rfl⟩ : ObjectCode.Alike
      { name := layout'.name, start := layout'.start, symbols := layout'.symbols,
        entry := layout'.start } _)
  exact ⟨hrun.entry.trans hrun'.entry.symm, hrun.records.trans hrun'.records.symm,
    hrun.faults.trans hrun'.faults.symm⟩

theorem essence_ofLines
    (h : Layout.Alike (Layout.ofLines mode lines) (Layout.ofLines mode lines')) :
    (ofLines mode lines).essence = (ofLines mode lines').essence := by
  have hempty : (Layout.ofLines mode lines).faults.isEmpty =
      (Layout.ofLines mode lines').faults.isEmpty := errorFree_congr h
  have hfree :
      (ofLines mode lines').program.errorFree = (ofLines mode lines).program.errorFree := by
    rw [errorFree_ofLines, errorFree_ofLines, errorFree_congr h]
  cases hf : (ofLines mode lines).program.errorFree with
  | false =>
    rw [ofLines_of_faulty hf, ofLines_of_faulty (hfree.trans hf)]
    simp only [essence, Layout.program, h.name, h.start, h.counter, h.entryLabel, h.records,
      h.symbols, h.faults, hempty]
  | true =>
    obtain ⟨hentry, hrecords, hfaults⟩ := codeOf_congr h
    rw [ofLines_eq hf, ofLines_eq (hfree.trans hf)]
    simp only [essence, ObjectCode.complete, Layout.program, h.name, h.start, h.counter,
      h.entryLabel, h.symbols, hentry, hrecords, List.map_append, h.faults, hfaults, hempty]

/-- The object program depends on what is left without comments and places. -/
theorem objectProgram_congr (h : (ofLines mode lines).essence = (ofLines mode lines').essence) :
    (ofLines mode lines).report.objectProgram = (ofLines mode lines').report.objectProgram := by
  simp only [essence, Assembly.mk.injEq, Program.mk.injEq] at h
  obtain ⟨-, ⟨hname, hstart, hlength, hentry, -, hrecords, hfree⟩, -, hfaults⟩ := h
  have hmessages : (ofLines mode lines).report.messages = [] ↔
      (ofLines mode lines').report.messages = [] := by
    have hsize := congrArg List.length hfaults
    rw [List.length_map, List.length_map] at hsize
    rw [report, report, List.map_eq_nil_iff, List.map_eq_nil_iff, ← List.length_eq_zero_iff, hsize,
      List.length_eq_zero_iff]
  have htext (lines : List Text) : textRecords (ofLines mode lines).report.lines =
      textRecords ((essences (ofLines mode lines).program.records).map Report.Line.ofRecord) :=
    textRecords_essences fun record hrecord hc => comment_idle hrecord hc
  apply Report.objectProgram_congr hname hstart hlength hentry hfree hmessages
  rw [htext, htext, hrecords]

/-- **The same tokens make the same assembly**, but for comments and places in the source, and the
same object program. -/
theorem essence_of_tokens (h : tokens lines = tokens lines') (mode : Mode) :
    (ofLines mode lines).essence = (ofLines mode lines').essence ∧
      (ofLines mode lines).report.objectProgram = (ofLines mode lines').report.objectProgram := by
  have hessence := essence_ofLines (Layout.alike_of_tokens h mode)
  exact ⟨hessence, objectProgram_congr hessence⟩

/-- A program, and the same with other blanks, with comments, and with a line behind its end. -/
theorem essence_of_tokens_spread :
    tokens ["A START 1000", "B LDA B", "END A"] = tokens
        [". copy", "A\tSTART  1000 ", "", "  B LDA\tB", "    . done", "END A", "C RESB 1 2"] ∧
      (ofLines .xe [". copy", "A\tSTART  1000 ", "", "  B LDA\tB", "    . done", "END A",
        "C RESB 1 2"]).report.objectProgram =
        .ok "HA     001000000003\nT00100003032000\nE001000\n" := by
  have htokens : tokens ["A START 1000", "B LDA B", "END A"] = tokens
      [". copy", "A\tSTART  1000 ", "", "  B LDA\tB", "    . done", "END A", "C RESB 1 2"] := by
    decide +kernel
  refine ⟨htokens, ?_⟩
  rw [← (essence_of_tokens htokens .xe).2]
  decide +kernel

end Assembly

end SicXe
