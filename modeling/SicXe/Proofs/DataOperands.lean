import SicXe.Proofs.LabelReferences
import SicXe.Proofs.UpwardCompatibility

/-!
# Data operands in both runs

The layout checks the operands of byte and word directives before it knows the labels, and the
second run reads them again. The two agree:

* `flaw_ofByteOperand_iff`, `length_byteConstant?`: the layout finds no flaw in a byte operand if
  and only if the second run gets bytes from it, and has counted them.
* `wordFlaw?_eq_none_iff`: it finds no flaw in a word operand if and only if that is a number or a
  constant that fits in a word, or else a name.
* `finding?_byte`, `finding?_word`: what the second run finds in operands without a flaw.
* `Layout.data_agrees`: all of it together.
* `Layout.letters_counted_zero`: a constant with more bytes than a width can count.
-/

namespace SicXe

namespace Extent

open Operand

/-! ## Bytes -/

/-- **A byte operand has no flaw** if and only if it stands for bytes. -/
theorem flaw_ofByteOperand_iff (operand : Text) :
    (ofByteOperand operand).flaw = none ↔ (byteConstant? operand).isSome = true := by
  unfold ofByteOperand byteConstant?
  cases Constant.split? operand with
  | some parts => cases hdata : Constant.decode? operand <;> simp
  | none =>
    cases Numeral.decodeCount operand with
    | error e => simp
    | ok value => by_cases hrange : value < -128 ∨ 255 < value <;> simp [hrange]

/-- The width counts the bytes in 32 bits, so it is their number unless there are `2 ^ 32` or more;
so many has at most an operand that is as long. -/
theorem length_byteConstant? {operand data : Text} (h : byteConstant? operand = some data) :
    (ofByteOperand operand).width = UInt32.ofNat data.length ∧
      ((ofByteOperand operand).width.toNat = data.length ↔ data.length < 2 ^ 32) ∧
      (2 ^ 32 ≤ data.length → 2 ^ 32 ≤ operand.length) := by
  obtain ⟨hwidth, hle⟩ := width_ofByteOperand h
  refine ⟨hwidth, ?_, by omega⟩
  rw [hwidth, UInt32.toNat_ofNat']
  omega

/-! ## Words -/

/-- A value that fits in a word, with or without a sign. -/
def FitsWord (value : Int64) : Prop := -2 ^ 23 ≤ value.toInt ∧ value.toInt < 2 ^ 24

/-- A constant of at most three bytes fits in a word. -/
theorem fitsWord_ofBytes {data : Text} (h : data.length ≤ 3) :
    FitsWord (Int64.ofInt (Word.ofBytes data).toNat) := by
  have hlt := lt_pow_bigEndian data
  have hpow : 256 ^ data.length ≤ 256 ^ 3 := Nat.pow_le_pow_right (by decide) h
  rw [FitsWord, toInt_ofInt_address, Word.toNat_ofBytes_of_length_le (by omega)]
  omega

theorem fitsWord_iff (value : Int64) :
    FitsWord value ↔ ¬ (value < -0x800000 ∨ 0x1000000 ≤ value) := by
  rw [FitsWord, Int64.lt_iff_toInt_lt, Int64.le_iff_toInt_le]
  have hlow : (-0x800000 : Int64).toInt = -2 ^ 23 := by decide
  have hhigh : (0x1000000 : Int64).toInt = 2 ^ 24 := by decide
  rw [hlow, hhigh]
  omega

/-- **A word operand has no flaw** if and only if it stands for a value that fits in a word, or for
none and is a name. -/
theorem wordFlaw?_eq_none_iff (operand : Text) :
    wordFlaw? operand = none ↔
      (∃ value, wordConstant? operand = some value ∧ FitsWord value) ∨
        wordConstant? operand = none ∧ operand.isSymbolName = true := by
  unfold wordFlaw?
  by_cases hnil : operand = []
  · subst hnil
    simp [wordConstant?, Constant.split?, Numeral.decodeCount, Numeral.splitSign, Numeral.scan,
      Except.toOption, Text.isSymbolName]
  rw [if_neg hnil]
  unfold wordConstant?
  cases hsplit : Constant.split? operand with
  | some parts =>
    -- a constant is no name
    have hname : operand.isSymbolName = false := by
      rw [← Bool.not_eq_true]
      intro hname
      cases hsplit.symm.trans (Constant.split?_of_isSymbolName hname)
    cases hdata : Constant.decode? operand with
    | none => simp [hname]
    | some data =>
      by_cases hlength : data.length ≤ 3
      · simp [hlength, fitsWord_ofBytes hlength]
      · simp [hlength, hname]
  | none =>
    cases hcount : Numeral.decodeCount operand with
    | error e => simp [Except.toOption]
    | ok value => simp [Except.toOption, fitsWord_iff]

end Extent

/-! ## What the layout grants -/

namespace Layout

variable {mode : Mode} {lines : List Text} {symbols : SymbolTable} {k : Nat} {record : Record}

/-- In a layout without a fault the operand of a directive that takes up storage has no flaw. -/
theorem flaw_of_errorFree (hfree : (ofLines mode lines symbols).program.errorFree = true)
    (h : (ofLines mode lines symbols).records.toList[k]? = some record) {directive : Directive}
    (hcontent : record.content = .directive directive)
    (hstorage : directive ≠ .start ∧ directive ≠ .finish ∧ directive ≠ .base) :
    (extentOf mode record.statement (some directive)).2.flaw = none := by
  obtain ⟨-, step⟩ := record_step h
  have hfaults := step.found.symm.trans (faults_of_errorFree hfree h)
  have hmode := (ofLines_laid mode (lines.take k) symbols).machine
  have hdirective : record.source.isDirective directive = true :=
    isDirective_of_contentOf (step.content.symm.trans hcontent)
  have hline := Text.isStatement_of_isDirective hdirective
  have hlabel : record.source.definesLabel = true :=
    (Text.definesLabel_iff hline).2 ⟨Text.isDirective_eq_false hdirective hstorage.1,
      Text.isDirective_eq_false hdirective hstorage.2.1,
      Text.isDirective_eq_false hdirective hstorage.2.2⟩
  obtain ⟨-, -, hflaw, -⟩ := (lineFaults_storage hlabel).1 hfaults
  rw [extentAt, hmode, (Text.isDirective_iff hline).1 hdirective] at hflaw
  rw [step.statement, if_neg (by simp [Text.isComment_of_isStatement hline])]
  exact hflaw

end Layout

/-! ## What the second run finds -/

namespace ObjectCode

open Operand

variable (code : ObjectCode) {record : Record}

theorem finding?_byte (hcontent : record.content = .directive .byte)
    (hflaw : (Extent.ofByteOperand record.statement.operand).flaw = none) :
    code.finding? record = none := by
  obtain ⟨data, hdata⟩ :=
    Option.isSome_iff_exists.1 ((Extent.flaw_ofByteOperand_iff _).1 hflaw)
  have hobject : objectOf code.symbols code.base record .byte 0 = .ok data := by
    simp [objectOf, resolve, hdata, toLiteral, Instruction.encode, instruction]
  rw [finding?, hcontent]
  dsimp only [Content.encoding?]
  rw [hobject]
  rfl

/-- A word operand without a flaw is refused only as a name that is no label. -/
theorem finding?_word (hcontent : record.content = .directive .word)
    (hflaw : Extent.wordFlaw? record.statement.operand = none) :
    code.finding? record =
      if record.statement.operand.isSymbolName = true ∧
        code.symbols.get? record.statement.operand = none
      then some (.unknownLabel record.statement.operand) else none := by
  have hfinding : code.finding? record =
      failure? (objectOf code.symbols code.base record .word 0) := by
    rw [finding?, hcontent]
    rfl
  rw [hfinding]
  rcases (Extent.wordFlaw?_eq_none_iff _).1 hflaw with ⟨value, hvalue, -⟩ | ⟨-, hname⟩
  · have hnot : ¬ record.statement.operand.isSymbolName = true := by
      intro hname
      cases hvalue.symm.trans (wordConstant?_of_isSymbolName hname)
    rw [if_neg fun h => hnot h.1, objectOf, resolve, hvalue]
    rfl
  · cases hget : code.symbols.get? record.statement.operand with
    | some address =>
      rw [if_neg (by simp), objectOf, resolve_defined hname rfl hget]
      rfl
    | none =>
      rw [if_pos ⟨hname, rfl⟩, objectOf, resolve, wordConstant?_of_isSymbolName hname, resolveLabel,
        hget]
      dsimp only
      rw [if_pos hname]
      rfl

end ObjectCode

/-! ## Both runs -/

namespace Layout

open Operand

/-- **The two runs agree on data.** The layout accepts a byte operand if and only if the second run
gets bytes from it, and then has counted them in 32 bits, which is their number unless the operand
has `2 ^ 32` bytes; it accepts a word operand if and only if that is a number or constant that fits
in a word, or neither and a name. So in a program that was laid out without a fault, the second run,
under any labels, finds no fault in a byte directive, and in a word directive only that the name it
has for an operand is no label. -/
theorem data_agrees :
    (∀ operand : Text, ((Extent.ofByteOperand operand).flaw = none ↔
        (byteConstant? operand).isSome = true) ∧
      ∀ data, byteConstant? operand = some data →
        (Extent.ofByteOperand operand).width = UInt32.ofNat data.length ∧
          ((Extent.ofByteOperand operand).width.toNat = data.length ↔ data.length < 2 ^ 32) ∧
          (2 ^ 32 ≤ data.length → 2 ^ 32 ≤ operand.length)) ∧
    (∀ operand : Text, Extent.wordFlaw? operand = none ↔
      (∃ value, wordConstant? operand = some value ∧ -2 ^ 23 ≤ value.toInt ∧
          value.toInt < 2 ^ 24) ∨
        wordConstant? operand = none ∧ operand.isSymbolName = true) ∧
    ∀ (mode : Mode) (lines : List Text) (before symbols : SymbolTable),
      (ofLines mode lines before).program.errorFree = true →
      ∀ (k : Nat) (record : Record),
        (ObjectCode.ofProgram (ofLines mode lines before).program symbols).records[k]? =
          some record →
        (record.content = .directive .byte → record.faults = []) ∧
        (record.content = .directive .word → record.faults =
          if record.statement.operand.isSymbolName = true ∧
            symbols.get? record.statement.operand = none
          then [record.faultAt record.statement.operand (.unknownLabel record.statement.operand)]
          else []) := by
  refine ⟨fun operand => ⟨Extent.flaw_ofByteOperand_iff operand,
    fun data => Extent.length_byteConstant?⟩, Extent.wordFlaw?_eq_none_iff, ?_⟩
  intro mode lines before symbols hfree k record h
  rw [← Array.getElem?_toList] at h
  obtain ⟨laid, hlaid, rfl⟩ := ObjectCode.record_settled rfl h
  have hsymbols := ObjectCode.symbols_foldl
    ((ofLines mode lines before).program.records.take k)
    { name := (ofLines mode lines before).program.name
      start := (ofLines mode lines before).program.start
      symbols, entry := (ofLines mode lines before).program.entry }
  generalize List.foldl ObjectCode.pushRecord _ _ = code at hsymbols ⊢
  have hfaults : (code.settled laid).faults =
      ((code.finding? laid).map (laid.faultAt laid.statement.operand)).toList := by
    rw [ObjectCode.settled, faults_of_errorFree hfree hlaid]
    rfl
  refine ⟨fun (hcontent : laid.content = _) => ?_, fun (hcontent : laid.content = _) => ?_⟩
  · have hflaw := flaw_of_errorFree hfree hlaid hcontent (by decide)
    rw [hfaults, ObjectCode.finding?_byte code hcontent hflaw]
    rfl
  · have hflaw := flaw_of_errorFree hfree hlaid hcontent (by decide)
    rw [hfaults, ObjectCode.finding?_word code hcontent hflaw, hsymbols]
    by_cases hmissing : laid.statement.operand.isSymbolName = true ∧
        symbols.get? laid.statement.operand = none
    · rw [if_pos hmissing]
      exact (if_pos hmissing).symm
    · rw [if_neg hmissing]
      exact (if_neg hmissing).symm

/-- A byte constant, and a word that names no label. -/
theorem data_agrees_missing :
    let lines : List Text := ["D BYTE X'F1A'", "W WORD NAME"]
    let code := ObjectCode.ofProgram (ofLines .xe lines).program (ofLines .xe lines).symbols
    (Extent.ofByteOperand "X'F1A'").width.toNat = ([0x0F, 0x1A] : Text).length ∧
      ∃ record, code.records[1]? = some record ∧
        record.faults = [record.faultAt "NAME" (.unknownLabel "NAME")] := by
  intro lines code
  have hdata : byteConstant? "X'F1A'" = some [0x0F, 0x1A] := by decide +kernel
  refine ⟨((data_agrees.1 "X'F1A'").2 _ hdata).2.1.2 (by decide), ?_⟩
  have hrecord : code.records[1]? = some
      { line := 2, source := "W WORD NAME", content := .directive .word,
        statement := { label := "W", mnemonic := "WORD", operand := "NAME" },
        address := 2, width := 3,
        faults := [⟨⟨2, 8⟩, .unknownLabel "NAME"⟩] } := by decide +kernel
  refine ⟨_, hrecord, ?_⟩
  have h := (data_agrees.2.2 .xe lines .empty (ofLines .xe lines).symbols (by decide +kernel) 1 _
    hrecord).2 rfl
  exact h.trans (if_pos (by decide +kernel))

/-- A constant of `2 ^ 32` letters is accepted and stands for as many bytes, and its width is 0. -/
theorem letters_counted_zero :
    (Extent.ofByteOperand (Constant.ofLetters (2 ^ 32))).flaw = none ∧
      byteConstant? (Constant.ofLetters (2 ^ 32)) = some (List.replicate (2 ^ 32) 0x41) ∧
      (List.replicate (2 ^ 32) (0x41 : UInt8)).length = 2 ^ 32 ∧
      (Extent.ofByteOperand (Constant.ofLetters (2 ^ 32))).width.toNat = 0 := by
  have hpos : 0 < 2 ^ 32 := by decide
  rw [Extent.ofByteOperand_ofLetters hpos]
  exact ⟨rfl, byteConstant?_ofLetters hpos, List.length_replicate, rfl⟩

end Layout

end SicXe
