import SicXe.Proofs.FieldPlaces

/-!
# The columns of faults

Most faults are about a field of their line. The column of such a fault is found by a search for the
text of the field, so it is that of the field only if the text does not occur before it.

* `Cause.part?`: the field that a cause is about. `Layout.Finds.located`,
  `ObjectCode.mem_found_located`: both runs look for the text of this field.
* `Text.PointsAt`, `Text.columnOf_pointsAt`: what such a search says about the place of a field.
* `Assembly.faults_pointed`: all of this for every fault of an assembly.
-/

namespace SicXe

/-! ## Fields of a statement -/

/-- The fields of a statement. -/
inductive Part where
  | label
  | mnemonic
  | operand
  deriving DecidableEq, Repr

/-- The text of a field in a statement. -/
def Part.text (statement : Statement) : Part → Text
  | .label => statement.label
  | .mnemonic => statement.mnemonic
  | .operand => statement.operand

/-- Which of the fields of a line is the given one, if the line has so many fields. -/
def Part.index? (count : Nat) : Part → Option Nat
  | .label => if count = 3 then some 0 else none
  | .mnemonic => if count = 3 then some 1 else if count = 1 ∨ count = 2 then some 0 else none
  | .operand => if count = 3 then some 2 else if count = 2 then some 1 else none

/-- The field that a cause is about, unless it is about the line or the program. -/
def Cause.part? : Cause → Option Part
  | .duplicateLabel _ => some .label
  | .unknownMnemonic _ | .misplacedDirective _ => some .mnemonic
  | .invalidOperand .. | .unknownLabel _ | .outOfReach _ => some .operand
  | .tooManyFields .. | .oversized .. => none

namespace Text

/-- The text of a field of a line. Of a label only the first bytes count. -/
def partText (line : Text) (part : Part) : Text := part.text (Statement.ofLine line)

/-- The number of bytes before a field of a line. -/
def partStart? (line : Text) (part : Part) : Option Nat :=
  (part.index? line.fields.length).bind (line.fieldStarts[·]?)

/-- The fields of a line before the given one. -/
def fieldsBefore (line : Text) (part : Part) : List Text :=
  line.fields.take ((part.index? line.fields.length).getD 0)

/-- The fields of a statement. -/
theorem few_cases {fields : List Text} (h : fields.length ≤ Statement.maxFields) :
    fields = [] ∨ (∃ a, fields = [a]) ∨ (∃ a b, fields = [a, b]) ∨ ∃ a b c, fields = [a, b, c] := by
  rcases fields with _ | ⟨a, _ | ⟨b, _ | ⟨c, _ | ⟨d, rest⟩⟩⟩⟩
  · exact .inl rfl
  · exact .inr (.inl ⟨a, rfl⟩)
  · exact .inr (.inr (.inl ⟨a, b, rfl⟩))
  · exact .inr (.inr (.inr ⟨a, b, c, rfl⟩))
  · simp only [Statement.maxFields, List.length_cons] at h
    omega

/-- A label is the first field, and cut; the other fields are taken whole. -/
theorem partText_spec {line : Text} {part : Part} (hfew : line.fields.length ≤ Statement.maxFields)
    (hne : line.partText part ≠ []) :
    ∃ k field, part.index? line.fields.length = some k ∧ line.fields[k]? = some field ∧
      (line.partText part = field ∨
        part = .label ∧ k = 0 ∧ line.partText part = field.take Statement.maxLabel) := by
  unfold partText Statement.ofLine at hne ⊢
  generalize line.fields = fields at hfew hne
  obtain rfl | ⟨a, rfl⟩ | ⟨a, b, rfl⟩ | ⟨a, b, c, rfl⟩ := few_cases hfew
  · cases part <;> exact absurd rfl hne
  · cases part with
    | mnemonic => exact ⟨0, a, rfl, rfl, .inl rfl⟩
    | label | operand => exact absurd rfl hne
  · cases part with
    | label => exact absurd rfl hne
    | mnemonic => exact ⟨0, a, rfl, rfl, .inl rfl⟩
    | operand => exact ⟨1, b, rfl, rfl, .inl rfl⟩
  · cases part with
    | label => exact ⟨0, a, rfl, rfl, .inr ⟨rfl, rfl, rfl⟩⟩
    | mnemonic => exact ⟨1, b, rfl, rfl, .inl rfl⟩
    | operand => exact ⟨2, c, rfl, rfl, .inl rfl⟩

theorem mnemonic_ne_nil {line : Text} (h : line.isStatement = true) :
    line.partText .mnemonic ≠ [] := by
  obtain ⟨hcomment, hfew⟩ := isStatement_iff.1 h
  have hfield (field : Text) (h : field ∈ line.fields) : field ≠ [] := (field_spec h).1
  rw [isComment_eq_isRemark] at hcomment
  unfold partText Statement.ofLine
  generalize line.fields = fields at hfew hfield hcomment
  obtain rfl | ⟨a, rfl⟩ | ⟨a, b, rfl⟩ | ⟨a, b, c, rfl⟩ := few_cases hfew
  · cases hcomment
  · exact hfield a (by simp)
  · exact hfield a (by simp)
  · exact hfield b (by simp)

/-! ## What a search for a field finds -/

/-- A field of a line stands behind `start` bytes, and its text is found behind `offset` bytes: that
is where it first occurs. The field itself is found if and only if its text does not occur before
it; and in UTF-8, if and only if its text is no part of a field before it. -/
structure PointsAt (line : Text) (part : Part) (start offset : Nat) : Prop where
  placed : line.partStart? part = some start
  occurs : line.OccursAt (line.partText part) offset
  first : ∀ other, line.OccursAt (line.partText part) other → offset ≤ other
  found_iff : offset = start ↔ ∀ other < start, ¬ line.OccursAt (line.partText part) other
  found_iff_of_isUtf8 : line.isUtf8 = true →
    (offset = start ↔ ∀ field ∈ line.fieldsBefore part, ¬ line.partText part <:+: field)

theorem bytes_isPrefix_label {g : Glyph} {gs : List Glyph} (h : AreChars (g :: gs)) :
    g.bytes <+: ((g :: gs).flatMap Glyph.bytes).take Statement.maxLabel := by
  obtain ⟨c, rfl⟩ := h g List.mem_cons_self
  have hsize : (Glyph.char c).bytes.length ≤ Statement.maxLabel := by
    rw [Glyph.bytes, String.length_utf8EncodeChar]
    exact Nat.le_trans c.utf8Size_le_four (by decide)
  rw [List.flatMap_cons, List.take_append, List.take_of_length_le hsize]
  exact List.prefix_append _ _

/-- In UTF-8, the text of a field occurs before the field if and only if it is a part of a field
before it. A label, which is cut, never does: it would have to begin with a blank. -/
theorem occurs_before_iff {line : Text} (hutf8 : line.isUtf8 = true) {before run after : List Glyph}
    (hcut : Cut line.glyphs before run after) {text : Text} (hne : text ≠ [])
    (htext : text = run.flatMap Glyph.bytes ∨
      fieldsOf before = [] ∧ text = (run.flatMap Glyph.bytes).take Statement.maxLabel) :
    (∃ offset < (before.flatMap Glyph.bytes).length, line.OccursAt text offset) ↔
      ∃ field ∈ fieldsOf before, text <:+: field := by
  have hchars := areChars_glyphs hutf8
  constructor
  · rintro ⟨offset, hlt, hoccurs⟩
    rw [← flatMap_bytes_glyphs line] at hoccurs
    rcases htext with rfl | ⟨hnone, rfl⟩
    · exact exists_field_of_isInfix hcut.run_ne_nil hcut.isBlank_run
        (hcut.isInfix_before hchars hcut.run_ne_nil (List.Subset.refl run) hoccurs hlt)
    · obtain ⟨g, rest, rfl⟩ := List.exists_cons_of_ne_nil hcut.run_ne_nil
      have hrun : AreChars (g :: rest) := fun g' hg' =>
        hchars g' (by rw [hcut.glyphs]; exact List.mem_append_right _ (List.mem_append_left _ hg'))
      have hfirst :
          OccursAt (line.glyphs.flatMap Glyph.bytes) ([g].flatMap Glyph.bytes) offset := by
        rw [List.flatMap_singleton]
        exact (bytes_isPrefix_label hrun).trans hoccurs
      have hbefore := hcut.isInfix_before hchars (List.cons_ne_nil g []) (by simp) hfirst hlt
      obtain ⟨field, hfield, -⟩ := exists_field_of_isInfix (List.cons_ne_nil g [])
        (by simpa using hcut.isBlank_run g List.mem_cons_self) hbefore
      rw [hnone] at hfield
      cases hfield
  · rintro ⟨field, hfield, hlies⟩
    obtain ⟨offset, hlt, hoccurs⟩ := hcut.occurs_of_mem hne hfield hlies
    rw [flatMap_bytes_glyphs] at hoccurs
    exact ⟨offset, hlt, hoccurs⟩

theorem offset_eq_iff {line text : Text} {start offset : Nat} (hstart : line.OccursAt text start)
    (hoccurs : line.OccursAt text offset)
    (hfirst : ∀ other, line.OccursAt text other → offset ≤ other) :
    offset = start ↔ ∀ other < start, ¬ line.OccursAt text other := by
  constructor
  · rintro rfl other hother h
    exact absurd (hfirst other h) (Nat.not_le.2 hother)
  · intro h
    exact Nat.le_antisymm (hfirst start hstart) (Nat.le_of_not_lt fun hlt => h offset hlt hoccurs)

/-- **The column of a field's text**, as far as it tells the place of the field. -/
theorem columnOf_pointsAt {line : Text} {part : Part}
    (hfew : line.fields.length ≤ Statement.maxFields) (hne : line.partText part ≠ []) :
    ∃ start offset, line.columnOf (line.partText part) = offset + 1 ∧
      line.PointsAt part start offset := by
  obtain ⟨k, field, hk, hfield, htext⟩ := partText_spec hfew hne
  obtain ⟨start, hstart⟩ : ∃ start, line.fieldStarts[k]? = some start := by
    refine ⟨_, List.getElem?_eq_getElem ?_⟩
    rw [length_fieldStarts]
    exact (List.getElem?_eq_some_iff.1 hfield).1
  obtain ⟨before, run, after, hcut, hlength, htake, hrun⟩ := exists_cut_of_start hstart
  obtain rfl : field = run.flatMap Glyph.bytes := Option.some.inj (hfield.symm.trans hrun)
  have hthere : line.OccursAt (line.partText part) start := by
    have hwhole := hcut.occurs_run
    rw [flatMap_bytes_glyphs, ← hlength] at hwhole
    rcases htext with htext | ⟨-, -, htext⟩
    · rwa [htext]
    · rw [htext]
      exact (List.take_prefix _ _).trans hwhole
  obtain ⟨offset, hcolumn, hoccurs, hfirst⟩ := columnOf_spec hne hthere
  have hfound := offset_eq_iff hthere hoccurs hfirst
  refine ⟨start, offset, hcolumn, ?_, hoccurs, hfirst, hfound, fun hutf8 => ?_⟩
  · rw [partStart?, hk, Option.bind_some, hstart]
  · have hbefore : line.fieldsBefore part = fieldsOf before := by
      rw [fieldsBefore, hk, Option.getD_some, htake]
    have htext' : line.partText part = run.flatMap Glyph.bytes ∨ fieldsOf before = [] ∧
        line.partText part = (run.flatMap Glyph.bytes).take Statement.maxLabel := by
      rcases htext with htext | ⟨-, rfl, htext⟩
      · exact .inl htext
      · exact .inr ⟨by rw [← htake, List.take_zero], htext⟩
    have hiff := not_congr (occurs_before_iff hutf8 hcut hne htext')
    rw [hfound, hbefore, hlength]
    simpa using hiff

end Text

/-! ## Where faults are looked for -/

/-- A fault stands at the text of the field that its cause is about. Only an operand may be
missing. -/
def Fault.Located (fault : Fault) (line : Text) : Prop :=
  ∀ part, fault.cause.part? = some part →
    line.fields.length ≤ Statement.maxFields ∧ (part ≠ .operand → line.partText part ≠ []) ∧
      fault.position.column = line.columnOf (line.partText part)

theorem Fault.Located.of_part {line : Text} (part : Part) {cause : Cause}
    (hcause : cause.part? = some part) (hfew : line.fields.length ≤ Statement.maxFields)
    (hne : part ≠ .operand → line.partText part ≠ []) (number : Int) :
    Fault.Located ⟨⟨number, line.columnOf (line.partText part)⟩, cause⟩ line := by
  intro other hother
  obtain rfl : part = other := Option.some.inj (hcause.symm.trans hother)
  exact ⟨hfew, hne, rfl⟩

theorem Fault.Located.of_none {fault : Fault} (h : fault.cause.part? = none) (line : Text) :
    fault.Located line := by
  intro part hpart
  rw [h] at hpart
  cases hpart

theorem Layout.Finds.located {line field : Text} {cause : Cause} (h : Finds line field cause)
    (number : Int) : Fault.Located ⟨⟨number, line.columnOf field⟩, cause⟩ line := by
  cases h with
  | overfull | oversized => exact .of_none rfl line
  | duplicate hline hlabel =>
    exact .of_part .label rfl (Text.isStatement_iff.1 hline).2 (fun _ => hlabel) number
  | unknown hline | misplaced hline =>
    exact .of_part .mnemonic rfl (Text.isStatement_iff.1 hline).2
      (fun _ => Text.mnemonic_ne_nil hline) number
  | flawed hline =>
    exact .of_part .operand rfl (Text.isStatement_iff.1 hline).2 (fun hne => absurd rfl hne) number

/-- A cause that is about an operand. -/
def Cause.IsOperand (cause : Cause) : Prop := cause.part? = some .operand

/-- A resolution can fail for the operand only. -/
def Resolution.BlamesOperand (resolution : Resolution) : Prop :=
  ∀ cause, resolution.failure = some cause → cause.IsOperand

theorem Resolution.blamesOperand_of_none {resolution : Resolution}
    (h : resolution.failure = none) : resolution.BlamesOperand := by
  intro cause hcause
  rw [h] at hcause
  cases hcause

namespace Operand

theorem blames_reject (operand : Operand) (flaw : OperandFlaw) :
    (operand.reject flaw).BlamesOperand := by
  intro cause h
  cases h
  rfl

theorem blames_resolveLabel (operand : Operand) (name : Text) (symbols : SymbolTable) :
    (operand.resolveLabel name symbols).BlamesOperand := by
  unfold resolveLabel
  split
  · exact Resolution.blamesOperand_of_none rfl
  · split
    · intro cause h
      cases h
      rfl
    · exact operand.blames_reject _

theorem blames_resolveRegisters (operand : Operand) :
    operand.resolveRegisters.BlamesOperand := by
  unfold resolveRegisters
  split
  · exact operand.blames_reject _
  · split
    · exact operand.blames_reject _
    · exact Resolution.blamesOperand_of_none rfl
  · split
    · exact operand.blames_reject _
    · split
      · exact operand.blames_reject _
      · exact Resolution.blamesOperand_of_none rfl
  · exact operand.blames_reject _

theorem blames_resolveName (operand : Operand) (name : Text) (format : Format)
    (symbols : SymbolTable) : (operand.resolveName name format symbols).BlamesOperand := by
  unfold resolveName
  split
  · exact operand.blames_reject _
  split
  · exact Resolution.blamesOperand_of_none rfl
  split
  · split
    · exact Resolution.blamesOperand_of_none rfl
    · exact operand.blames_reject _
  · split
    · exact operand.blames_reject _
    · exact operand.blames_resolveLabel name symbols

theorem blames_resolve (text : Text) (format : Format) (symbols : SymbolTable) :
    (resolve text format symbols).BlamesOperand := by
  unfold resolve
  split
  · split
    · exact Resolution.blamesOperand_of_none rfl
    · exact blames_reject _ _
  · exact blames_resolveRegisters _
  · split
    · exact Resolution.blamesOperand_of_none rfl
    · exact blames_reject _ _
  · split
    · exact Resolution.blamesOperand_of_none rfl
    · exact blames_resolveLabel _ _ _
  · unfold resolveMemory
    split
    · exact Resolution.blamesOperand_of_none rfl
    · dsimp only
      split
      · exact blames_reject _ _
      · exact blames_resolveName _ _ _ _

end Operand

namespace Instruction

theorem layOut_ne_fault {format : Format} {opcode : UInt8} {flags : Flags} {value second : UInt32}
    {cause : Cause} : layOut format opcode flags value second ≠ .error (.fault cause) := by
  intro h
  unfold layOut at h
  split at h <;> cases h

theorem isOperand_of_displacement {inst : Instruction} {cause : Cause}
    (h : inst.displacement = .error cause) : cause.IsOperand := by
  have hrelative (h : inst.relativeDisplacement = .error cause) : cause.IsOperand := by
    unfold relativeDisplacement at h
    dsimp only at h
    split at h
    · cases h
    · split at h
      · cases h
      · cases h
        rfl
  unfold displacement at h
  split at h
  case h_1 | h_2 | h_3 | h_4 => cases h
  split at h
  · cases h
  · split at h
    · exact hrelative h
    · cases h

/-- An encoding can fail for the operand only. -/
theorem isOperand_of_encode {inst : Instruction} {cause : Cause}
    (h : inst.encode = .error (.fault cause)) : cause.IsOperand := by
  unfold encode at h
  split at h
  · split at h <;> cases h
  · split at h
    · exact absurd h layOut_ne_fault
    · exact absurd h layOut_ne_fault
    · cases h
  · split at h
    · cases h
    · split at h
      · rename_i hdisplacement
        cases h
        exact isOperand_of_displacement hdisplacement
      · exact absurd h layOut_ne_fault

end Instruction

namespace ObjectCode

variable {code : ObjectCode} {record : Record} {cause : Cause} {fault : Fault}

theorem isOperand_of_refusal? {symbols : SymbolTable} {operand : Text}
    (h : refusal? symbols operand = some cause) : cause.IsOperand := by
  have hrefused : address symbols operand = .error cause := by
    unfold refusal? at h
    split at h
    · cases h
    · rename_i haddress
      cases h
      exact haddress
  unfold address at hrefused
  split at hrefused
  · cases hrefused
  split at hrefused
  · cases hrefused
  split at hrefused
  · cases hrefused
    rfl
  · cases hrefused
    rfl

/-- The second run finds faults in operands only. -/
theorem isOperand_of_finding? (h : code.finding? record = some cause) : cause.IsOperand := by
  unfold finding? at h
  split at h
  · rename_i format opcode _
    cases hobject : objectOf code.symbols code.base record format opcode with
    | ok object =>
      rw [hobject] at h
      cases h
    | error error =>
      rw [hobject] at h
      cases error with
      | defect defect => cases h
      | fault other =>
        cases h
        unfold objectOf at hobject
        dsimp only at hobject
        split at hobject
        · rename_i hfailure
          cases hobject
          exact Operand.blames_resolve _ _ _ _ hfailure
        · exact Instruction.isOperand_of_encode hobject
  · split at h
    · exact isOperand_of_refusal? h
    · cases h

/-- A record of the layout in which the second run finds a fault is that of a statement. -/
theorem mem_found_located {mode : Mode} (hfound : fault ∈ code.found record)
    (hcontent : record.content = Layout.contentOf mode record.source)
    (hstatement : record.statement =
      if record.source.isComment then {} else .ofLine record.source) :
    fault.Located record.source := by
  rw [found, Option.mem_toList] at hfound
  obtain ⟨cause, hcause, rfl⟩ := Option.map_eq_some_iff.1 hfound
  have hcomment : record.source.isComment = false := by
    rw [← Bool.not_eq_true]
    intro hc
    rw [Layout.contentOf, if_pos hc] at hcontent
    simp [finding?, hcontent, Content.encoding?, locates] at hcause
  have hfew : record.source.fields.length ≤ Statement.maxFields := by
    refine Nat.le_of_not_lt fun hmany => ?_
    rw [Layout.contentOf, if_neg (by simp [hcomment]), if_pos hmany] at hcontent
    simp [finding?, hcontent, Content.encoding?, locates] at hcause
  have hoperand : record.statement.operand = record.source.partText .operand := by
    rw [hstatement, if_neg (by simp [hcomment])]
    rfl
  rw [hoperand]
  exact .of_part .operand (isOperand_of_finding? hcause) hfew (fun hne => absurd rfl hne) _

end ObjectCode

/-! ## Assemblies -/

namespace Assembly

variable {mode : Mode} {lines : List Text} {record : Record} {fault : Fault}

theorem fault_located (h : record ∈ (ofLines mode lines).program.records)
    (hfault : fault ∈ record.faults) : fault.Located record.source := by
  obtain ⟨k, hk⟩ := List.mem_iff_getElem?.1 h
  cases hfree : (ofLines mode lines).program.errorFree with
  | false =>
    rw [ofLines_of_faulty hfree] at hk
    obtain ⟨-, step⟩ := Layout.record_step hk
    rw [step.found] at hfault
    obtain ⟨-, field, cause, rfl, hfinds⟩ := Layout.mem_lineFaults hfault
    exact hfinds.located _
  | true =>
    rw [ofLines_eq hfree] at hk
    obtain ⟨laid, hlaid, rfl⟩ := ObjectCode.record_settled rfl hk
    rw [ObjectCode.settled, faults_of_errorFree hfree laid (List.mem_of_getElem? hlaid),
      List.nil_append] at hfault
    obtain ⟨-, step⟩ := Layout.record_step hlaid
    exact ObjectCode.mem_found_located hfault step.content step.statement

/-- **The columns of faults.** A fault that is about a field has the column where the text of the
field first occurs in its line, so it points at the field if and only if the text does not occur
before it. A fault about a missing operand has the first column. -/
theorem faults_pointed {input : Input} {assembly : Assembly} (h : ofInput mode input = .ok assembly)
    (hfault : fault ∈ assembly.faults) {part : Part} (hpart : fault.cause.part? = some part) :
    ∃ (k : Nat) (line : Text), input.lines.lines[k]? = some line ∧ fault.position.line = k + 1 ∧
      (part = .operand ∧ line.partText .operand = [] ∧ fault.position.column = 1 ∨
        ∃ start offset : Nat, fault.position.column = offset + 1 ∧
          line.PointsAt part start offset) := by
  obtain rfl := ofInput_eq_ok h
  rw [faults_eq_flatMap, List.mem_flatMap] at hfault
  obtain ⟨record, hrecord, hfault⟩ := hfault
  obtain ⟨k, hk⟩ := List.mem_iff_getElem?.1 hrecord
  obtain ⟨hnumber, hline⟩ := number_ofLines hk
  obtain ⟨hfew, hne, hcolumn⟩ := fault_located hrecord hfault part hpart
  refine ⟨k, record.source, hline, ?_, ?_⟩
  · rw [(fault_liesIn hrecord hfault).line, hnumber]
    rfl
  by_cases hnil : record.source.partText part = []
  · obtain rfl : part = .operand := Decidable.byContradiction fun hother => hne hother hnil
    refine .inl ⟨rfl, hnil, ?_⟩
    rw [hcolumn, Text.columnOf, if_pos hnil]
    rfl
  · obtain ⟨start, offset, hoffset, hpoints⟩ := Text.columnOf_pointsAt hfew hnil
    refine .inr ⟨start, offset, ?_, hpoints⟩
    rw [hcolumn, hoffset]
    rfl

/-- An operand behind a label and a mnemonic that do not hold it. -/
theorem faults_pointed_byte :
    ∃ assembly fault, ofInput .xe { text := "B WORD 1\n\tB BYTE 300\n" } = .ok assembly ∧
      fault ∈ assembly.faults ∧ fault.cause.part? = some .operand ∧
      ∃ start offset : Nat, fault.position.column = offset + 1 ∧ offset = start ∧
        Text.PointsAt "\tB BYTE 300" .operand start offset := by
  have hassembly : ofInput .xe { text := "B WORD 1\n\tB BYTE 300\n" } =
      .ok (ofLines .xe ["B WORD 1", "\tB BYTE 300"]) := rfl
  have hfault : ⟨⟨2, 9⟩, .invalidOperand "300" .byteTooLarge⟩ ∈
      (ofLines .xe ["B WORD 1", "\tB BYTE 300"]).faults := by decide +kernel
  refine ⟨_, _, hassembly, hfault, rfl, ?_⟩
  obtain ⟨k, line, hline, hnumber, hcase⟩ := faults_pointed hassembly hfault rfl
  obtain rfl : k = 1 := by
    dsimp only at hnumber
    omega
  cases hline
  rcases hcase with ⟨-, hnil, -⟩ | ⟨start, offset, hcolumn, hpoints⟩
  · exact absurd hnil (by decide +kernel)
  · have hfound := (hpoints.found_iff_of_isUtf8 (by decide +kernel)).2 (by decide +kernel)
    exact ⟨start, offset, hcolumn, hfound, hpoints⟩

/-- An operand that is found inside the mnemonic: the fault about it is reported in column 2, and
the operand begins in column 4. -/
theorem operand_found_in_mnemonic :
    ∃ assembly, ofInput .sic { text := "TD D\n" } = .ok assembly ∧
      assembly.faults = [⟨⟨1, 2⟩, .unknownLabel "D"⟩] ∧
      Text.partStart? "TD D" .operand = some 3 :=
  ⟨_, rfl, by decide +kernel, by decide +kernel⟩

end Assembly

end SicXe
