import SicXe.Editor.Hover
import SicXe.Proofs.Numerals

/-!
# What a hover text tells

The description of a label can be told from every other description, and it tells which label it is
about and which address that label has: `description?_eq_label`. A label's name may hold any byte,
so neither the bold marks nor the quotes delimit it from the front. From the back they do: a label's
description ends with a quote, no other description does, and the digits before that quote reach
back to the quote that opens them.
-/

namespace SicXe.Editor

variable {name word : Text} {address : UInt32}

/-- The quote around the address of a label. -/
def quoteMark : UInt8 := 0x60

theorem getLast?_describe {what : Text} {b : UInt8} (h : what.getLast? = some b) :
    (describe name what).getLast? = some b := by
  rw [describe, List.getLast?_append, h]
  rfl

/-! ## Descriptions of labels -/

theorem getLast?_describeLabel : (describeLabel name address).getLast? = some quoteMark := by
  apply getLast?_describe
  rw [List.getLast?_append]
  rfl

theorem quoteMark_notMem_hex {width n : Nat} : quoteMark ∉ Numeral.hex width n := by
  intro h
  have hdigit := Numeral.isHexDigit_of_mem_hex h
  revert hdigit
  decide

/-- The digits between the last two quotes of a text that ends with one. -/
def quotedAtEnd (t : Text) : Text := (t.dropLast.reverse.takeWhile (· != quoteMark)).reverse

theorem quotedAtEnd_describeLabel :
    quotedAtEnd (describeLabel name address) = Numeral.hex 4 address.toNat := by
  have hdigits : ∀ b ∈ (Numeral.hex 4 address.toNat).reverse, (b != quoteMark) = true := by
    intro b hb
    rw [bne_iff_ne]
    rintro rfl
    exact quoteMark_notMem_hex (List.mem_reverse.1 hb)
  have hopen : Text.ofString "label at `" = Text.ofString "label at " ++ [quoteMark] := by decide
  have hclose : Text.ofString "`" = [quoteMark] := by decide
  rw [quotedAtEnd, describeLabel, describe, hopen, hclose, ← List.append_assoc,
    List.dropLast_concat]
  simp only [List.reverse_append, List.append_assoc]
  rw [List.takeWhile_append_of_pos hdigits, List.reverse_append, List.reverse_reverse]
  simp

/-- **A label's description tells the label and its address.** -/
theorem describeLabel_inj {name' : Text} {address' : UInt32} :
    describeLabel name address = describeLabel name' address' ↔
      name = name' ∧ address = address' := by
  constructor
  · intro h
    have haddress : address = address' := by
      have hhex := congrArg quotedAtEnd h
      rw [quotedAtEnd_describeLabel, quotedAtEnd_describeLabel] at hhex
      have hdecode := congrArg Numeral.decodeAddress hhex
      rw [Numeral.decodeAddress_hex, Numeral.decodeAddress_hex] at hdecode
      exact Except.ok.inj hdecode
    subst haddress
    refine ⟨?_, rfl⟩
    simpa [describeLabel, describe] using h
  · rintro ⟨rfl, rfl⟩
    rfl

/-! ## Other descriptions -/

theorem ne_describeLabel {t : Text} {b : UInt8} (h : t.getLast? = some b) (hb : b ≠ quoteMark) :
    t ≠ describeLabel name address := by
  rintro rfl
  rw [getLast?_describeLabel] at h
  exact hb (Option.some.inj h).symm

theorem describeOpcode_ne_label (opcode : Opcode) :
    describeOpcode opcode ≠ describeLabel name address := by
  have hlast : (describeOpcode opcode).getLast? = some 0x73 := by
    apply getLast?_describe
    rw [List.getLast?_append]
    rfl
  exact ne_describeLabel hlast (by decide)

theorem describe_help_ne_label (directive : Directive) :
    describe word directive.help ≠ describeLabel name address := by
  have hlast : directive.help.getLast? = some 0x2E := by cases directive <;> decide +kernel
  exact ne_describeLabel (getLast?_describe hlast) (by decide)

theorem describe_register_ne_label {number : UInt8} (h : register? word = some number) :
    describe word (Text.ofString "register " ++ Numeral.decimal number.toNat) ≠
      describeLabel name address := by
  obtain ⟨entry, hentry, rfl⟩ := Option.map_eq_some_iff.1 h
  have hdigits : ∀ entry ∈ registers,
      ∃ b, (Numeral.decimal entry.2.toNat).getLast? = some b ∧ b ≠ quoteMark := by
    simp only [registers, List.forall_mem_cons]
    decide
  obtain ⟨b, hb, hne⟩ := hdigits entry (List.mem_of_find?_eq_some hentry)
  refine ne_describeLabel (getLast?_describe ?_) hne
  rw [List.getLast?_append, hb]
  rfl

/-! ## The description of a word -/

/-- **A word is described as a label exactly if it is one**, under its own name and with the address
that the assembly gave it. -/
theorem description?_eq_label {assembly : Option Assembly} {mode : Mode} :
    description? word assembly mode = some (describeLabel name address) ↔
      word = name ∧ name ≠ [] ∧ assembly.bind (·.symbols.get? name) = some address := by
  unfold description?
  by_cases hword : word = []
  · rw [if_pos hword]
    simp only [reduceCtorEq, false_iff]
    rintro ⟨rfl, hname, -⟩
    exact hname hword
  rw [if_neg hword]
  cases hlabel : assembly.bind (·.symbols.get? word) with
  | some found =>
    simp only [Option.some.injEq, describeLabel_inj]
    constructor
    · rintro ⟨rfl, rfl⟩
      exact ⟨rfl, hword, hlabel⟩
    · rintro ⟨rfl, -, hfound⟩
      exact ⟨rfl, Option.some.inj (hlabel.symm.trans hfound)⟩
  | none =>
    -- the word is no label, so the right side fails and each other description has its own end
    have hright : ¬ (word = name ∧ name ≠ [] ∧
        assembly.bind (·.symbols.get? name) = some address) := by
      rintro ⟨rfl, -, hfound⟩
      exact Option.some_ne_none _ (hfound.symm.trans hlabel)
    simp only [hright, iff_false]
    cases mode.opcode? word with
    | some opcode => exact fun h => describeOpcode_ne_label opcode (Option.some.inj h)
    | none =>
      cases Directive.ofKeyword? word with
      | some directive => exact fun h => describe_help_ne_label directive (Option.some.inj h)
      | none =>
        intro h
        obtain ⟨number, hnumber, htext⟩ := Option.map_eq_some_iff.1 h
        exact describe_register_ne_label hnumber htext

/-- The word at a place of a text, if the text has such a line. -/
def pointedWord? (text : Text) (place : Place) : Option Text :=
  (itemAt? (text.split Text.lineFeed) place.line).map fun line =>
    (wordAt line place.character).text

/-- **A place of a document shows a label exactly if the word there is one.** -/
theorem hover?_eq_label {mode : Mode} {document : Document} {place : Place} :
    (∃ span, document.hover? mode place = some (describeLabel name address, span)) ↔
      pointedWord? document.text place = some name ∧ name ≠ [] ∧
        document.assembly.bind (·.symbols.get? name) = some address := by
  unfold Document.hover? pointedWord?
  cases itemAt? (document.text.split Text.lineFeed) place.line with
  | none => simp
  | some line =>
    simp only [Option.map_some, Option.some.injEq]
    constructor
    · rintro ⟨span, h⟩
      obtain ⟨text, htext, hpair⟩ := Option.map_eq_some_iff.1 h
      rw [(Prod.mk.inj hpair).1] at htext
      exact description?_eq_label.1 htext
    · intro h
      refine ⟨_, Option.map_eq_some_iff.2 ⟨_, ?_, rfl⟩⟩
      exact description?_eq_label.2 h

end SicXe.Editor
