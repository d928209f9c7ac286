import SicXe.Proofs.Findings
import SicXe.Proofs.Recovery

/-!
# Labels and the operands that name them

A label is kept with its first six bytes, and an operand is looked up as it is written. So a label
of up to six bytes is found by the text it was written with, and a longer one never is.

* `Operand.resolve_defined`, `Operand.resolve_undefined`: an operand in the form of a name is a
  label or unknown, in every format that takes labels; it is no number, register or constant.
* `Layout.length_le_of_get?`, `Layout.get?_of_defines`: the labels of a layout without a fault.
* `Record.LeadsTo`: the outcome of a record tells the address that its operand was taken for.
* `Assembly.labels_referenced`: which references lead to the statement with their label.
-/

namespace SicXe

/-! ## Names -/

namespace Text

theorem isSymbolName_iff {t : Text} :
    t.isSymbolName = true ↔ ∃ b rest, t = b :: rest ∧ isNameLetter b = true ∧
      ∀ c ∈ rest, (isNameLetter c || isNameDigit c) = true := by
  cases t with
  | nil => simp [isSymbolName]
  | cons b rest => simp [isSymbolName]

theorem ne_nil_of_isSymbolName {t : Text} (h : t.isSymbolName = true) : t ≠ [] := by
  obtain ⟨b, rest, rfl, -⟩ := isSymbolName_iff.1 h
  exact List.cons_ne_nil b rest

/-- A name is made of letters and digits only. -/
theorem not_mem_of_isSymbolName {t : Text} (h : t.isSymbolName = true) {b : UInt8}
    (hb : (isNameLetter b || isNameDigit b) = false) : b ∉ t := by
  obtain ⟨a, rest, rfl, ha, hrest⟩ := isSymbolName_iff.1 h
  intro hmem
  rcases List.mem_cons.1 hmem with rfl | hmem
  · simp [ha] at hb
  · rw [hrest b hmem] at hb
    cases hb

/-- The label of a line as it is written, if the line has as many fields as a statement may. -/
def labelToken? (line : Text) : Option Text :=
  if line.fields.length = Statement.maxFields then line.fields.head? else none

theorem ne_nil_of_labelToken? {line label : Text} (h : line.labelToken? = some label) :
    label ≠ [] := by
  unfold labelToken? at h
  split at h
  · exact (field_spec (List.mem_of_mem_head? h)).1
  · cases h

/-- A label is kept with its first bytes. -/
theorem label_ofLine {line label : Text} (h : line.labelToken? = some label) :
    (Statement.ofLine line).label = label.take Statement.maxLabel := by
  unfold labelToken? at h
  rw [Statement.ofLine]
  rcases hf : line.fields with _ | ⟨a, _ | ⟨b, _ | ⟨c, rest⟩⟩⟩ <;>
    simp [hf, Statement.maxFields] at h
  rw [← h.2]
  rfl

end Text

theorem Numeral.digit?_of_isNameLetter {b : UInt8} (h : Text.isNameLetter b = true) :
    digit? 10 b = none := by
  simp only [Text.isNameLetter, Bool.or_eq_true, Bool.and_eq_true, decide_eq_true_eq,
    beq_iff_eq] at h
  have hcode : 0x41 ≤ b.toNat ∧ b.toNat ≤ 0x5A ∨ 0x61 ≤ b.toNat ∧ b.toNat ≤ 0x7A ∨
      b.toNat = 0x5F := by
    rcases h with (h | h) | rfl
    · exact .inl h
    · exact .inr (.inl h)
    · exact .inr (.inr rfl)
  unfold digit? digitValue?
  dsimp only
  split
  case h_2 => rfl
  case h_1 d hd =>
    refine if_neg ?_
    split at hd
    · omega
    · split at hd
      · cases hd
        omega
      · split at hd <;> cases hd
        omega

/-- A name is no number. -/
theorem Numeral.decodeCount_of_isSymbolName {t : Text} (h : t.isSymbolName = true) :
    ∃ e, decodeCount t = .error e := by
  obtain ⟨b, rest, rfl, hb, -⟩ := Text.isSymbolName_iff.1 h
  have hsign : splitSign (b :: rest) = (false, b :: rest) := by
    have hminus : b ≠ 0x2D := fun h => by subst h; cases hb
    have hplus : b ≠ 0x2B := fun h => by subst h; cases hb
    rw [splitSign, if_neg hminus, if_neg hplus]
  have hscan : scan 10 (b :: rest) = .error .notDigit := by
    rw [scan, if_neg (List.cons_ne_nil b rest), scanFrom, digit?_of_isNameLetter hb]
  rw [decodeCount, hsign]
  dsimp only
  rw [hscan]
  exact ⟨_, rfl⟩

/-- A name is no constant. -/
theorem Constant.split?_of_isSymbolName {t : Text} (h : t.isSymbolName = true) :
    split? t = none := by
  have hquote := Text.not_mem_of_isSymbolName h (b := Text.apostrophe) (by decide)
  refine Option.eq_none_iff_forall_ne_some.2 fun parts hsplit => hquote ?_
  rw [split?_eq_some_iff.1 hsplit]
  simp

/-- Registers have names of at most two bytes. -/
theorem register?_eq_none {name : Text} (h : 2 < name.length) : register? name = none := by
  have hshort : ∀ entry ∈ registers, entry.1.length ≤ 2 := by decide
  rw [register?, Option.map_eq_none_iff, List.find?_eq_none]
  intro entry hentry heq
  have := hshort entry hentry
  rw [beq_iff_eq.1 heq] at this
  omega

/-! ## Operands in the form of names -/

/-- Formats in which an operand may be a label. -/
def Format.takesLabel (format : Format) : Bool :=
  match format with
  | .sic | .three | .four | .word => true
  | _ => false

namespace Operand

variable {symbols : SymbolTable} {name : Text} {format : Format}

theorem wordConstant?_of_isSymbolName (h : name.isSymbolName = true) :
    wordConstant? name = none := by
  obtain ⟨e, he⟩ := Numeral.decodeCount_of_isSymbolName h
  rw [wordConstant?, Constant.split?_of_isSymbolName h, he]
  rfl

theorem unmarked_of_isSymbolName (h : name.isSymbolName = true) :
    name.head? ≠ some immediateMarker ∧ name.head? ≠ some indirectMarker := by
  constructor <;> intro hhead <;>
    exact Text.not_mem_of_isSymbolName h (by decide) (List.mem_of_mem_head? hhead)

theorem unindexed_of_isSymbolName (h : name.isSymbolName = true) :
    ∀ front ≠ [], name ≠ front ++ indexEnding := by
  rintro front - rfl
  refine Text.not_mem_of_isSymbolName h (b := Text.comma) (by decide) ?_
  exact List.mem_append_right front (by decide)

theorem plainReference_of_isSymbolName (h : name.isSymbolName = true) {address : UInt32}
    (hget : symbols.get? name = some address) : PlainReference symbols name address :=
  ⟨hget, unmarked_of_isSymbolName h, unindexed_of_isSymbolName h⟩

theorem memory_or_word (h : format.takesLabel = true) :
    (format = .sic ∨ format = .three ∨ format = .four) ∨ format = .word := by
  cases format with
  | sic | three | four | word => simp
  | one | two | byte | unknown => cases h

theorem resolve_defined (h : name.isSymbolName = true) (hformat : format.takesLabel = true)
    {address : UInt32} (hget : symbols.get? name = some address) :
    resolve name format symbols = toSymbol { text := name } address := by
  rcases memory_or_word hformat with hmemory | rfl
  · rw [ObjectCode.resolve_memory hmemory]
    exact resolveMemory_plain (Text.ne_nil_of_isSymbolName h)
      (plainReference_of_isSymbolName h hget) format
  · rw [resolve, wordConstant?_of_isSymbolName h]
    dsimp only
    rw [resolveLabel, hget]

theorem resolve_undefined (h : name.isSymbolName = true) (hformat : format.takesLabel = true)
    (hlong : 2 < name.length) (hget : symbols.get? name = none) :
    (resolve name format symbols).failure = some (.unknownLabel name) := by
  have hlabel (operand : Operand) :
      (resolveLabel operand name symbols).failure = some (.unknownLabel name) := by
    rw [resolveLabel, hget]
    dsimp only
    rw [if_pos h]
  rcases memory_or_word hformat with hmemory | rfl
  · obtain ⟨e, he⟩ := Numeral.decodeCount_of_isSymbolName h
    obtain ⟨himmediate, hindirect⟩ := unmarked_of_isSymbolName h
    have hne := Text.ne_nil_of_isSymbolName h
    rw [ObjectCode.resolve_memory hmemory, resolveMemory, if_neg hne,
      splitMarker_eq_simple himmediate hindirect]
    dsimp only
    rw [splitIndex_eq_false (unindexed_of_isSymbolName h), if_neg (by simp)]
    dsimp only
    rw [resolveName, if_neg hne, hget, he, register?_eq_none hlong]
    exact hlabel _
  · rw [resolve, wordConstant?_of_isSymbolName h]
    exact hlabel _

end Operand

namespace ObjectCode

theorem address_defined {symbols : SymbolTable} {name : Text} {target : UInt32}
    (hget : symbols.get? name = some target) : address symbols name = .ok target := by
  rw [address, hget]

theorem address_undefined {symbols : SymbolTable} {name : Text} (h : name.isSymbolName = true)
    (hget : symbols.get? name = none) : address symbols name = .error (.unknownLabel name) := by
  obtain ⟨e, he⟩ := Numeral.decodeCount_of_isSymbolName h
  rw [address, hget, he]
  exact if_pos h

end ObjectCode

/-! ## The labels of a layout -/

namespace Layout

variable {mode : Mode} {lines : List Text} {symbols : SymbolTable} {k : Nat} {record : Record}

theorem length_le_of_get? {label : Text} {address : UInt32}
    (h : (ofLines mode lines symbols).symbols.get? label = some address) :
    label.length ≤ Statement.maxLabel := by
  rw [(ofLines_laid mode lines symbols).symbols] at h
  obtain ⟨definer, hdefiner, -⟩ := Option.map_eq_some_iff.1 h
  obtain ⟨-, k, hk, ⟨-, rfl⟩, -⟩ := definition?_eq_some.1 hdefiner
  obtain ⟨-, step⟩ := record_step hk
  rw [step.statement]
  split
  · exact Nat.zero_le _
  · exact (Statement.label_spec _).1

/-- In a layout without a fault each label has one definition, and stands for its address. -/
theorem get?_of_defines (hfree : (ofLines mode lines symbols).program.errorFree = true)
    (h : (ofLines mode lines symbols).records.toList[k]? = some record) {label : Text}
    (hdefines : Defines record label) (hne : label ≠ []) :
    (ofLines mode lines symbols).symbols.get? label = some record.address := by
  have hclean := faults_of_errorFree hfree h
  have hfirst : ∀ j < k, ∀ other, (ofLines mode lines symbols).records.toList[j]? = some other →
      ¬ Defines other label := by
    intro j hj other hother hd
    have hfault := (duplicate_record h hdefines hne).2 ⟨j, hj, other, hother, hd⟩
    rw [hclean] at hfault
    cases hfault
  have hdefinition := definition?_eq_some.2 ⟨hne, k, h, hdefines, hfirst⟩
  rw [(ofLines_laid mode lines symbols).symbols, hdefinition]
  rfl

theorem isDirective_of_contentOf {line : Text} {directive : Directive}
    (h : contentOf mode line = .directive directive) : line.isDirective directive = true := by
  unfold contentOf at h
  split at h
  case isTrue => cases h
  case isFalse hcomment =>
    split at h
    case isTrue => cases h
    case isFalse hfields =>
      rw [Bool.not_eq_true] at hcomment
      have hs := Text.isStatement_iff.2 ⟨hcomment, Nat.le_of_not_lt hfields⟩
      rw [Text.isDirective_iff hs]
      rw [extentAt] at h
      cases hd : Directive.ofKeyword? (Statement.ofLine line).mnemonic with
      | some found =>
        rw [hd] at h
        cases found <;> cases h <;> rfl
      | none =>
        rw [hd, extentOf] at h
        split at h <;> cases h

/-- The directive that ends a program has the last record. -/
theorem finish_last (h : (ofLines mode lines symbols).records.toList[k]? = some record)
    (hcontent : record.content = .directive .finish) :
    k + 1 = (ofLines mode lines symbols).records.toList.length := by
  have hk := lt_length_toEnd h
  obtain ⟨hline, step⟩ := record_step h
  have hfinish : record.source.isDirective .finish = true := by
    rw [step.content] at hcontent
    exact isDirective_of_contentOf hcontent
  rw [length_records]
  rw [length_toEnd] at hk ⊢
  obtain ⟨hlt, hget⟩ := List.getElem?_eq_some_iff.1 hline
  cases he : lines.findIdx? (·.isDirective .finish) with
  | none =>
    have := List.findIdx?_eq_none_iff.1 he record.source (List.mem_of_getElem? hline)
    rw [hfinish] at this
    cases this
  | some e =>
    obtain ⟨hel, -, hfirst⟩ := List.findIdx?_eq_some_iff_getElem.1 he
    have hle : e ≤ k := by
      refine Nat.le_of_not_lt fun hke => ?_
      have := hfirst k hke
      rw [hget] at this
      exact this hfinish
    rw [he] at hk
    simp only [Option.elim_some] at hk ⊢
    omega

theorem name_pushLines : ∀ (lines : List Text) (layout : Layout), layout.started = true →
    (layout.pushLines lines).name = layout.name
  | [], _, _ => rfl
  | line :: lines, layout, hs => by
    obtain ⟨record, step⟩ := layout.pushLine_step line
    rw [pushLines]
    split
    · rfl
    · rw [name_pushLines lines (layout.pushLine line) (by rw [step.started, hs]; rfl), step.name]
      simp [begins, hs]

/-- The program has its name from the line that begins it. -/
theorem name_of_beginning {line : Text} (hb : beginning? lines = some k)
    (hl : lines[k]? = some line) :
    (ofLines mode lines symbols).name = (Statement.ofLine line).label := by
  have hk := beginning?_lt_toEnd hb
  obtain ⟨hfind, hstart⟩ := Option.filter_eq_some_iff.1 hb
  rw [hl, Option.any_some] at hstart
  obtain ⟨_, _, hfirst⟩ := List.findIdx?_eq_some_iff_getElem.1 hfind
  have hidle : (ofLines mode (lines.take k) symbols).started = false := by
    rw [(laid_take mode symbols (Nat.le_of_lt hk)).started, List.any_eq_false]
    intro other hother
    obtain ⟨j, hj, rfl⟩ := List.mem_take_iff_getElem.1 hother
    exact hfirst j (by omega)
  obtain ⟨record, step⟩ := (ofLines mode (lines.take k) symbols).pushLine_step line
  have hbegins : (ofLines mode (lines.take k) symbols).begins line = true := by
    simp [begins, hidle, hstart]
  have hcomment := Text.isComment_of_isStatement (Text.isStatement_of_isDirective hstart)
  have hsplit : ofLines mode lines symbols =
      ((ofLines mode (lines.take k) symbols).pushLine line).pushLines (lines.drop (k + 1)) := by
    rw [← ofLines_take_succ hl hk]
    simp only [ofLines]
    rw [← pushLines_append, List.take_append_drop]
  rw [hsplit, name_pushLines _ _ (by rw [step.started, hcomment]; exact Bool.or_true _), step.name,
    if_pos hbegins]

end Layout

/-! ## Where operands lead -/

/-- A label in format 3 is near enough to be counted from the statement. -/
def Record.IsNear (record : Record) (target : UInt32) : Prop :=
  -2048 ≤ (target.toNat : Int) - record.address.toNat ∧
    (target.toNat : Int) - record.address.toNat ≤ 2047

/-- The outcome of a record tells that its operand was taken for the address `target`, with the
given base register. -/
inductive Record.LeadsTo (record : Record) (base : Nat) (target : UInt32) : Format → Prop
  | field {format : Format} {decoded : Decoded} (long : format = .sic ∨ format = .four)
    (clean : record.faults = []) (object : decode? format record.object = some decoded)
    (low : decoded.field = target.toNat % 2 ^ format.addressBits) :
    LeadsTo record base target format
  | word (clean : record.faults = []) (three : record.object.length = 3)
    (low : bigEndian record.object = target.toNat % 2 ^ 24) : LeadsTo record base target .word
  | near {opcode d : Nat} (near : record.IsNear target) (clean : record.faults = [])
    (object : decode? .three record.object = some ⟨opcode, { n := true, i := true, p := true }, d⟩)
    (sum : record.address.toNat + signed 12 d = target.toNat) : LeadsTo record base target .three
  | based {opcode d : Nat} (far : ¬ record.IsNear target) (clean : record.faults = [])
    (object : decode? .three record.object = some ⟨opcode, { n := true, i := true, b := true }, d⟩)
    (sum : (base + d : Int) = target.toNat) : LeadsTo record base target .three
  | beyond {distance : Int64} (far : ¬ record.IsNear target) (object : record.object = [])
    (fault : record.faults = [record.faultAt record.statement.operand (.outOfReach distance)])
    (sum : (base + distance.toInt : Int) = target.toNat) : LeadsTo record base target .three

/-- The operand of a record names a label that nothing is known of. -/
def Record.NamesUnknown (record : Record) : Prop :=
  record.object = [] ∧ record.faults =
    [record.faultAt record.statement.operand (.unknownLabel record.statement.operand)]

/-- Whether the operand of a record may be a label. -/
def Content.takesLabel (content : Content) : Bool :=
  content == .directive .base || content == .directive .finish ||
    content.encoding?.any (·.1.takesLabel)

theorem Content.takesLabel_cases {content : Content} (h : content.takesLabel = true) :
    (content = .directive .base ∨ content = .directive .finish) ∨
      ∃ format opcode, content.encoding? = some (format, opcode) ∧ format.takesLabel = true := by
  simp only [takesLabel, Bool.or_eq_true, beq_iff_eq] at h
  refine h.imp_right fun hany => ?_
  cases he : content.encoding? with
  | none => simp [he] at hany
  | some encoding => exact ⟨encoding.1, encoding.2, rfl, by simpa [he] using hany⟩

namespace ObjectCode

variable {symbols : SymbolTable} {base : UInt32} {record : Record} {format : Format}
  {opcode : UInt8}

theorem leadsTo_three {target : UInt32} (hne : record.statement.operand ≠ [])
    (hplain : Operand.PlainReference symbols record.statement.operand target)
    (h : record = record.bare.settle (objectOf symbols base record.bare .three opcode)) :
    record.LeadsTo base.toNat target .three := by
  obtain ⟨inst, hinst, htarget, hthree, -, hsource, hbase⟩ :=
    objectOf_plain base record.bare opcode hne hplain
  rw [hinst] at h
  have hiff : record.IsNear target ↔ -2048 ≤ (target.toNat : Int) - inst.source.toNat ∧
      (target.toNat : Int) - inst.source.toNat ≤ 2047 := by
    rw [hsource]
    rfl
  by_cases hnear : record.IsNear target
  · obtain ⟨object, d, hencode, hdecode, hsum⟩ :=
      Instruction.encode_near htarget hthree (hiff.1 hnear)
    obtain ⟨hobject, hclean⟩ := Assembly.settled_ok (hencode ▸ h)
    rw [hsource] at hsum
    exact .near hnear hclean (hobject ▸ hdecode) hsum
  · by_cases hreach : 0 ≤ (target.toNat : Int) - inst.base.toNat ∧
        (target.toNat : Int) - inst.base.toNat ≤ 4095
    · obtain ⟨object, d, hencode, hdecode, hsum⟩ :=
        Instruction.encode_based htarget hthree (mt hiff.2 hnear) hreach
      obtain ⟨hobject, hclean⟩ := Assembly.settled_ok (hencode ▸ h)
      rw [hbase] at hsum
      exact .based hnear hclean (hobject ▸ hdecode) hsum
    · obtain ⟨distance, hencode, hdistance⟩ :=
        Instruction.encode_outOfReach htarget hthree (mt hiff.2 hnear) hreach
      rw [hencode] at h
      rw [hbase] at hdistance
      exact .beyond hnear (congrArg Record.object h) (congrArg Record.faults h) (by omega)

theorem leadsTo_long {target : UInt32} {text : Text} (hformat : format = .sic ∨ format = .four)
    (hobjectOf : objectOf symbols base record.bare format opcode =
      (instruction record.bare (Operand.toSymbol { text } target).operand format opcode
        base).encode)
    (h : record = record.bare.settle (objectOf symbols base record.bare format opcode)) :
    record.LeadsTo base.toNat target format := by
  obtain ⟨object, decoded, hencode, hdecode, -, -, hfield⟩ := Instruction.encode_absolute
    (instruction record.bare (Operand.toSymbol { text } target).operand format opcode base)
    (hformat.imp_right .inr) (.inl rfl) (by rcases hformat with rfl | rfl <;> rfl) rfl
  obtain ⟨hobject, hclean⟩ := Assembly.settled_ok (hencode ▸ hobjectOf ▸ h)
  refine .field hformat hclean (hobject ▸ hdecode) ?_
  have hvalue := Operand.toInt_ofInt_address target
  simp only [instruction, Operand.toSymbol, hvalue] at hfield
  exact_mod_cast hfield

/-- **A label that is defined**: the outcome leads to its address. -/
theorem leadsTo_of_get? {target : UInt32} (hname : record.statement.operand.isSymbolName = true)
    (hformat : format.takesLabel = true)
    (hget : symbols.get? record.statement.operand = some target)
    (h : record = record.bare.settle (objectOf symbols base record.bare format opcode)) :
    record.LeadsTo base.toNat target format := by
  have hresolve : Operand.resolve record.bare.statement.operand format symbols =
      Operand.toSymbol { text := record.statement.operand } target :=
    Operand.resolve_defined hname hformat hget
  have hobjectOf : objectOf symbols base record.bare format opcode =
      (instruction record.bare
        (Operand.toSymbol { text := record.statement.operand } target).operand format opcode
        base).encode := by
    unfold objectOf
    dsimp only
    rw [hresolve]
    rfl
  cases format with
  | three =>
    exact leadsTo_three (Text.ne_nil_of_isSymbolName hname)
      (Operand.plainReference_of_isSymbolName hname hget) h
  | sic => exact leadsTo_long (.inl rfl) hobjectOf h
  | four => exact leadsTo_long (.inr rfl) hobjectOf h
  | word =>
    obtain ⟨hobject, hclean⟩ := Assembly.settled_ok (hobjectOf ▸ h)
    have hok := hobjectOf.trans (congrArg Except.ok hobject.symm)
    obtain ⟨hlength, value, hvalue, hlow⟩ := isCode_word hok
    have hword : Operand.wordValue? symbols record.bare.statement.operand =
        some (target.toNat : Int) := by
      have hnone : Operand.wordConstant? record.bare.statement.operand = none :=
        Operand.wordConstant?_of_isSymbolName hname
      rw [Operand.wordConstant?_eq_none hnone]
      exact congrArg (Option.map _) hget
    cases hword.symm.trans hvalue
    exact .word hclean hlength (by exact_mod_cast hlow)
  | one | two | byte | unknown => cases hformat

/-- **A label that is not defined**, of more than two bytes, is a fault that tells so. -/
theorem namesUnknown_of_get? (hname : record.statement.operand.isSymbolName = true)
    (hformat : format.takesLabel = true) (hlong : 2 < record.statement.operand.length)
    (hget : symbols.get? record.statement.operand = none)
    (h : record = record.bare.settle (objectOf symbols base record.bare format opcode)) :
    record.NamesUnknown := by
  have hfault : objectOf symbols base record.bare format opcode =
      .error (.fault (.unknownLabel record.statement.operand)) := by
    unfold objectOf
    dsimp only
    rw [show (Operand.resolve record.bare.statement.operand format symbols).failure =
      some (.unknownLabel record.statement.operand) from
      Operand.resolve_undefined hname hformat hlong hget]
  rw [hfault] at h
  exact ⟨congrArg Record.object h, congrArg Record.faults h⟩

end ObjectCode

/-! ## Assemblies -/

namespace ObjectCode

theorem name_foldl (records : List Record) (init : ObjectCode) :
    (records.foldl pushRecord init).name = init.name ∧
      (records.foldl pushRecord init).start = init.start :=
  foldl_induction (P := fun _ code => code.name = init.name ∧ code.start = init.start)
    (fun h step => ⟨step.name.trans h.1, step.start.trans h.2⟩) records [] ⟨rfl, rfl⟩

end ObjectCode

namespace Assembly

variable {mode : Mode} {lines : List Text} {k : Nat} {record : Record}

/-- **Each record of a program without a fault in its layout** is settled by a run with the labels,
the name and the start of the program, and the last one decides the entry point. -/
theorem record_run (hfree : (ofLines mode lines).program.errorFree = true)
    (h : (ofLines mode lines).program.records[k]? = some record) :
    ∃ code : ObjectCode, code.symbols = (ofLines mode lines).symbols ∧
      code.name = (ofLines mode lines).program.name ∧
      code.start = (ofLines mode lines).program.start ∧
      record = code.settled record.bare ∧
      (k + 1 = (Layout.ofLines mode lines).records.toList.length →
        (ofLines mode lines).program.entry = code.entryAfter record.bare) := by
  rw [ofLines_eq hfree] at h ⊢
  rw [errorFree_ofLines] at hfree
  obtain ⟨laid, hlaid, hsettled⟩ := ObjectCode.record_settled rfl h
  have hbare : record.bare = laid := by
    rw [hsettled, ← bare_layout hfree hlaid]
    rfl
  obtain ⟨hname, hstart⟩ := ObjectCode.name_foldl
    ((Layout.ofLines mode lines).program.records.take k) _
  refine ⟨_, ObjectCode.symbols_foldl _ _, hname, hstart, by rw [hbare]; exact hsettled, ?_⟩
  intro hlast
  have hsplit : (Layout.ofLines mode lines).program.records =
      (Layout.ofLines mode lines).program.records.take k ++ [laid] := by
    have htake : (Layout.ofLines mode lines).program.records.take (k + 1) =
        (Layout.ofLines mode lines).program.records :=
      List.take_of_length_le (Nat.le_of_eq hlast.symm)
    rw [List.take_add_one, hlaid] at htake
    exact htake.symm
  change (codeOf (Layout.ofLines mode lines)).entry = _
  rw [codeOf, ObjectCode.ofProgram]
  conv_lhs => rw [hsplit]
  rw [List.foldl_append, hbare]
  exact (ObjectCode.pushRecord_settled _ laid).entry

/-- The operand of the `k`-th record of an assembly was taken for the address `target`. -/
def Resolves (assembly : Assembly) (k : Nat) (record : Record) (target : UInt32) : Prop :=
  match record.content with
  | .directive .base =>
    record.faults = [] ∧ ObjectCode.baseAfter assembly.symbols
      (assembly.program.records.take (k + 1)) = target.toNat
  | .directive .finish => record.faults = [] ∧ assembly.program.entry = target
  | content =>
    ∃ format opcode, content.encoding? = some (format, opcode) ∧
      record.LeadsTo
        (ObjectCode.baseAfter assembly.symbols (assembly.program.records.take k)) target format

section
variable (hfree : (ofLines mode lines).program.errorFree = true)
  (h : (ofLines mode lines).program.records[k]? = some record)
include hfree h

/-- A record whose operand is looked up as an address has the fault that the look-up gives. -/
theorem faults_located (hcontent : record.content = .directive .base ∨
      (record.content = .directive .finish ∧ record.statement.operand ≠ [] ∧
        record.statement.operand ≠ (ofLines mode lines).program.name)) :
    record.object = [] ∧
      record.faults = ((ObjectCode.refusal? (ofLines mode lines).symbols
        record.statement.operand).map (record.faultAt record.statement.operand)).toList := by
  obtain ⟨code, hsymbols, hname, -, hsettled, -⟩ := record_run hfree h
  have he : record.content.encoding? = none :=
    ObjectCode.encoding?_directive (hcontent.imp_right And.left)
  have hlocates : code.locates record.bare := by
    unfold ObjectCode.locates
    rw [hname]
    exact hcontent
  have hfinding : code.finding? record.bare =
      ObjectCode.refusal? (ofLines mode lines).symbols record.statement.operand := by
    rw [ObjectCode.finding?, show record.bare.content.encoding? = none from he, hsymbols]
    exact if_pos hlocates
  refine ⟨(record_outcome hfree h).2.1 he, ?_⟩
  have hfaults : record.faults = code.found record.bare := congrArg Record.faults hsettled
  rw [hfaults, ObjectCode.found, hfinding]
  rfl

theorem entry_finish (hcontent : record.content = .directive .finish)
    (hne : record.statement.operand ≠ []) :
    (record.statement.operand = (ofLines mode lines).program.name →
        (ofLines mode lines).program.entry = (ofLines mode lines).program.start) ∧
      (record.statement.operand ≠ (ofLines mode lines).program.name → ∀ target,
        ObjectCode.address (ofLines mode lines).symbols record.statement.operand = .ok target →
        (ofLines mode lines).program.entry = target) := by
  obtain ⟨code, hsymbols, hname, hstart, -, hentry⟩ := record_run hfree h
  have hlaid := (record_outcome hfree h).1
  have hafter := hentry (Layout.finish_last hlaid hcontent)
  rw [ObjectCode.entryAfter, if_pos ⟨hcontent, hne⟩, hname, hstart, hsymbols] at hafter
  constructor
  · intro heq
    rw [hafter, show record.bare.statement = record.statement from rfl, if_pos heq]
  · intro hother target haddress
    rw [hafter, show record.bare.statement = record.statement from rfl, if_neg hother, haddress]
    rfl

/-- An end directive with the program's own name: no fault, and the entry point is the start. -/
theorem finish_name (hcontent : record.content = .directive .finish)
    (hne : record.statement.operand ≠ [])
    (hname : record.statement.operand = (ofLines mode lines).program.name) :
    record.faults = [] ∧
      (ofLines mode lines).program.entry = (ofLines mode lines).program.start := by
  refine ⟨?_, (entry_finish hfree h hcontent hne).1 hname⟩
  obtain ⟨code, -, hcode, -, hsettled, -⟩ := record_run hfree h
  have hquiet : ¬ code.locates record.bare := by
    rintro (hbase | ⟨-, -, hother⟩)
    · cases hcontent.symm.trans hbase
    · exact hother (hname.trans hcode.symm)
  have hfinding : code.finding? record.bare = none := by
    rw [ObjectCode.finding?, show record.bare.content.encoding? = none from
      ObjectCode.encoding?_directive (.inr hcontent)]
    exact if_neg hquiet
  have hfaults : record.faults = code.found record.bare := congrArg Record.faults hsettled
  rw [hfaults, ObjectCode.found, hfinding]
  rfl

section
variable (hcontent : record.content.takesLabel = true)
  (hname : record.statement.operand.isSymbolName = true)
  (hother : record.content = .directive .finish →
    record.statement.operand ≠ (ofLines mode lines).program.name)
include hcontent hname hother

/-- **A reference to a label that is defined** leads to its address. -/
theorem resolves_of_get? {target : UInt32}
    (hget : (ofLines mode lines).symbols.get? record.statement.operand = some target) :
    (ofLines mode lines).Resolves k record target := by
  have haddress := ObjectCode.address_defined hget
  have hnone :
      ObjectCode.refusal? (ofLines mode lines).symbols record.statement.operand = none := by
    rw [ObjectCode.refusal?, haddress]
  have hne := Text.ne_nil_of_isSymbolName hname
  unfold Resolves
  split
  case h_1 hbase =>
    obtain ⟨-, hfaults⟩ := faults_located hfree h (.inl hbase)
    rw [hnone] at hfaults
    refine ⟨hfaults, ?_⟩
    rw [List.take_add_one, h, Option.toList_some, ObjectCode.baseAfter_concat,
      ObjectCode.announced?, if_pos hbase, ← ObjectCode.toOption_address, haddress]
    rfl
  case h_2 hfinish =>
    obtain ⟨-, hfaults⟩ := faults_located hfree h (.inr ⟨hfinish, hne, hother hfinish⟩)
    rw [hnone] at hfaults
    exact ⟨hfaults, (entry_finish hfree h hfinish hne).2 (hother hfinish) target haddress⟩
  case h_3 hbase hfinish =>
    obtain hd | ⟨format, opcode, he, hformat⟩ := Content.takesLabel_cases hcontent
    · exact absurd hd (not_or.2 ⟨hbase, hfinish⟩)
    obtain ⟨-, -, base, hbaseAfter, houtcome⟩ := record_outcome hfree h
    refine ⟨format, opcode, he, ?_⟩
    rw [← hbaseAfter]
    exact ObjectCode.leadsTo_of_get? hname hformat hget (houtcome format opcode he)

/-- **A reference by more than six bytes** leads nowhere. -/
theorem namesUnknown_of_long (hlong : Statement.maxLabel < record.statement.operand.length) :
    record.NamesUnknown := by
  have hget : (ofLines mode lines).symbols.get? record.statement.operand = none := by
    rw [symbols_ofLines]
    cases hsome : (Layout.ofLines mode lines).symbols.get? record.statement.operand with
    | none => rfl
    | some address => exact absurd (Layout.length_le_of_get? hsome) (Nat.not_le_of_lt hlong)
  have hne := Text.ne_nil_of_isSymbolName hname
  have hrefusal : ObjectCode.refusal? (ofLines mode lines).symbols record.statement.operand =
      some (.unknownLabel record.statement.operand) := by
    rw [ObjectCode.refusal?, ObjectCode.address_undefined hname hget]
  rcases Content.takesLabel_cases hcontent with hlocated | ⟨format, opcode, he, hformat⟩
  · obtain ⟨hobject, hfaults⟩ := faults_located hfree h
      (hlocated.imp_right fun hfinish => ⟨hfinish, hne, hother hfinish⟩)
    rw [hrefusal] at hfaults
    exact ⟨hobject, hfaults⟩
  · obtain ⟨-, -, base, -, houtcome⟩ := record_outcome hfree h
    simp only [Statement.maxLabel] at hlong
    exact ObjectCode.namesUnknown_of_get? hname hformat (by omega) hget (houtcome format opcode he)

end

/-- The label that a record defines, if it is short enough to be kept as it is written. -/
theorem get?_of_labelToken? {label : Text} (hdefines : record.source.definesLabel = true)
    (htoken : record.source.labelToken? = some label)
    (hshort : label.length ≤ Statement.maxLabel) :
    (ofLines mode lines).symbols.get? label = some record.address := by
  have hlaid := (record_outcome hfree h).1
  obtain ⟨-, step⟩ := Layout.record_step hlaid
  have hcomment := Text.isComment_of_isStatement (Text.isStatement_of_definesLabel hdefines)
  have hstatement : record.bare.statement = .ofLine record.source := by
    rw [step.statement]
    exact if_neg (Bool.eq_false_iff.1 hcomment)
  have hlabel : record.bare.statement.label = label := by
    rw [hstatement, Text.label_ofLine htoken, List.take_of_length_le hshort]
  rw [symbols_ofLines]
  exact Layout.get?_of_defines (errorFree_ofLines ▸ hfree) hlaid ⟨hdefines, hlabel⟩
    (Text.ne_nil_of_labelToken? htoken)

end

/-- What becomes of operands that name a label by the text it was written with. -/
structure ReferencesLabels (lines : List Text) (assembly : Assembly) : Prop where
  label : ∀ (k j : Nat) (definer reference : Record) (label : Text),
    assembly.program.records[k]? = some definer → definer.source.definesLabel = true →
    definer.source.labelToken? = some label → label.isSymbolName = true →
    assembly.program.records[j]? = some reference → reference.content.takesLabel = true →
    reference.statement.operand = label →
    (reference.content = .directive .finish → label ≠ assembly.program.name) →
    if label.length ≤ Statement.maxLabel then assembly.Resolves j reference definer.address
    else reference.NamesUnknown
  /-- The label of the directive that begins the program, as the operand of the one that ends it. -/
  name : ∀ (k : Nat) (line label : Text) (finish : Record), Layout.beginning? lines = some k →
    lines[k]? = some line → line.labelToken? = some label → finish ∈ assembly.program.records →
    finish.content = .directive .finish → finish.statement.operand = label →
    if label.length ≤ Statement.maxLabel then
      finish.faults = [] ∧ assembly.program.entry = assembly.program.start
    else label.isSymbolName = true → finish.NamesUnknown

/-- **Labels of at most six bytes are found by the text they were written with, longer ones are
not.** -/
theorem labels_referenced {input : Input} {assembly : Assembly}
    (hassembly : ofInput mode input = .ok assembly) (hfree : assembly.program.errorFree = true) :
    ReferencesLabels input.lines.lines assembly := by
  obtain rfl := ofInput_eq_ok hassembly
  have hprogram := (program_ofLines hfree).1
  refine ⟨?label, ?name⟩
  case label =>
    rintro k j definer reference _ hdefiner hdefines htoken hname hreference hcontent rfl hother
    split
    case isTrue hshort =>
      apply resolves_of_get? hfree hreference hcontent hname hother
      exact get?_of_labelToken? hfree hdefiner hdefines htoken hshort
    case isFalse hlong =>
      exact namesUnknown_of_long hfree hreference hcontent hname hother (Nat.lt_of_not_le hlong)
  case name =>
    rintro k line _ finish hbeginning hline htoken hfinish hcontent rfl
    have hne := Text.ne_nil_of_labelToken? htoken
    obtain ⟨j, hj⟩ := List.mem_iff_getElem?.1 hfinish
    split
    case isTrue hshort =>
      apply finish_name hfree hj hcontent hne
      rw [hprogram, Layout.name_of_beginning hbeginning hline, Text.label_ofLine htoken,
        List.take_of_length_le hshort]
    case isFalse hlong =>
      intro hname
      refine namesUnknown_of_long hfree hj (by rw [hcontent]; rfl) hname (fun _ heq => hlong ?_)
        (Nat.lt_of_not_le hlong)
      rw [heq, hprogram]
      exact (Layout.name_spec _ _ _).1

/-- A label of six bytes is the entry point. -/
theorem labels_referenced_six :
    ∃ assembly definer finish,
      ofInput .xe { text := "COPY START 1000\nFIRST1 LDA FIRST1\nEND FIRST1\n" } = .ok assembly ∧
      assembly.program.errorFree = true ∧ assembly.program.records[1]? = some definer ∧
      definer.source.labelToken? = some (Text.ofString "FIRST1") ∧
      assembly.program.records[2]? = some finish ∧ finish.content = .directive .finish ∧
      assembly.Resolves 2 finish definer.address := by
  have hassembly :
      ofInput .xe { text := "COPY START 1000\nFIRST1 LDA FIRST1\nEND FIRST1\n" } =
        .ok (ofLines .xe ["COPY START 1000", "FIRST1 LDA FIRST1", "END FIRST1"]) := rfl
  have hdefiner :
      (ofLines .xe ["COPY START 1000", "FIRST1 LDA FIRST1", "END FIRST1"]).program.records[1]? =
        some { line := 2, source := "FIRST1 LDA FIRST1",
               content := .instruction ⟨"LDA", 0, .three⟩,
               statement := { label := "FIRST1", mnemonic := "LDA", operand := "FIRST1" },
               address := 0x1000, width := 3, object := [0x03, 0x20, 0x00] } := by decide +kernel
  have hfinish :
      (ofLines .xe ["COPY START 1000", "FIRST1 LDA FIRST1", "END FIRST1"]).program.records[2]? =
        some { line := 3, source := "END FIRST1", content := .directive .finish,
               statement := { mnemonic := "END", operand := "FIRST1" }, address := 0x1003 } := by
    decide +kernel
  have hfree :
      (ofLines .xe ["COPY START 1000", "FIRST1 LDA FIRST1", "END FIRST1"]).program.errorFree =
        true := by decide +kernel
  refine ⟨_, _, _, hassembly, hfree, hdefiner, by decide +kernel, hfinish, rfl, ?_⟩
  exact (labels_referenced hassembly hfree).label 1 2 _ _ "FIRST1" hdefiner (by decide +kernel)
    (by decide +kernel) (by decide) hfinish rfl rfl fun _ => by decide +kernel

/-- A longer label is not found by the text it was written with. -/
theorem long_label_not_resolved :
    ∃ assembly definer reference,
      ofInput .sic { text := "LONGLABEL WORD 1\nLDA LONGLABEL\n" } = .ok assembly ∧
      assembly.program.errorFree = true ∧ assembly.program.records[0]? = some definer ∧
      definer.source.definesLabel = true ∧
      definer.source.labelToken? = some (Text.ofString "LONGLABEL") ∧
      Text.isSymbolName "LONGLABEL" = true ∧ assembly.program.records[1]? = some reference ∧
      reference.content.takesLabel = true ∧
      reference.statement.operand = Text.ofString "LONGLABEL" ∧
      ¬ assembly.Resolves 1 reference definer.address := by
  have hassembly : ofInput .sic { text := "LONGLABEL WORD 1\nLDA LONGLABEL\n" } =
      .ok (ofLines .sic ["LONGLABEL WORD 1", "LDA LONGLABEL"]) := rfl
  have hreference : (ofLines .sic ["LONGLABEL WORD 1", "LDA LONGLABEL"]).program.records[1]? =
      some { line := 2, source := "LDA LONGLABEL", content := .instruction ⟨"LDA", 0, .sic⟩,
             statement := { mnemonic := "LDA", operand := "LONGLABEL" }, address := 3, width := 3,
             faults := [⟨⟨2, 5⟩, .unknownLabel "LONGLABEL"⟩] } := by decide +kernel
  have hdefiner : (ofLines .sic ["LONGLABEL WORD 1", "LDA LONGLABEL"]).program.records[0]? =
      some { line := 1, source := "LONGLABEL WORD 1", content := .directive .word,
             statement := { label := "LONGLA", mnemonic := "WORD", operand := "1" }, address := 0,
             width := 3, object := [0, 0, 1] } := by decide +kernel
  refine ⟨_, _, _, hassembly, by decide +kernel, hdefiner, by decide +kernel, by decide +kernel,
    by decide, hreference, rfl, rfl, ?_⟩
  rintro ⟨format, opcode, hencoding, hleads⟩
  cases hencoding
  cases hleads with
  | field _ clean => cases clean

end Assembly

end SicXe
