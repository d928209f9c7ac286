import Mathlib.Data.List.Forall2
import SicXe.Editor.Document
import SicXe.Proofs.FaultReports

/-!
# Where diagnostics stand

A fault has its place in a line as it was read, without the carriage returns at its end. A
diagnostic has its place in the text of a document, cut at its line feeds.

* `Assembly.line_of_record`: the line of a record stands in the text under the record's number.
* `Editor.fieldEnd_bounds`: a span that begins in a line ends in it.
* `Editor.faultMessage_eq`: a message without its position is the wording of its cause.
* `Editor.diagnostics_shown`: all of this for every diagnostic of an assembly.
-/

namespace SicXe

/-! ## The wording of a position -/

namespace Text

/-- A search goes past a text that does not have the first byte of what is looked for. -/
theorem after?_append {b : UInt8} (needle : Text) : ∀ {t : Text}, b ∉ t → ∀ rest : Text,
    after? (b :: needle) (t ++ rest) = after? (b :: needle) rest
  | [], _, _ => rfl
  | c :: t, h, rest => by
    rw [List.mem_cons, not_or] at h
    have hno : (b :: needle).isPrefixOf (c :: (t ++ rest)) = false := by
      simp [List.isPrefixOf_cons_cons, h.1]
    rw [List.cons_append, after?, hno, if_neg Bool.false_ne_true, after?_append needle h.2]

theorem after?_self (needle rest : Text) : after? needle (needle ++ rest) = some rest := by
  cases needle with
  | nil => cases rest <;> simp [after?]
  | cons b needle =>
    have hfound : (b :: needle).isPrefixOf (b :: needle ++ rest) = true :=
      List.isPrefixOf_iff_prefix.2 (List.prefix_append _ _)
    rw [List.cons_append] at hfound ⊢
    rw [after?, if_pos hfound, ← List.cons_append, List.drop_left]

theorem firstLine_append {t : Text} (h : lineFeed ∉ t) (rest : Text) :
    (t ++ rest).firstLine = t ++ rest.firstLine := by
  refine List.takeWhile_append_of_pos fun b hb => ?_
  exact bne_iff_ne.2 fun hfeed => h (hfeed ▸ hb)

end Text

namespace Numeral

/-- A padded decimal is written with digits, and with a minus sign in front of them. -/
theorem mem_paddedDecimal {width : Nat} {n : Int} {b : UInt8} (h : b ∈ paddedDecimal width n) :
    b = 0x2D ∨ 0x30 ≤ b.toNat ∧ b.toNat ≤ 0x39 := by
  have hpad (width : Nat) (h : b ∈ zeroPad width (decimal n.natAbs)) :
      0x30 ≤ b.toNat ∧ b.toNat ≤ 0x39 := by
    rcases List.mem_append.1 h with h | h
    · rw [List.eq_of_mem_replicate h]
      decide
    · exact mem_decimal h
  unfold paddedDecimal at h
  split at h
  · rcases List.mem_cons.1 h with h | h
    · exact .inl h
    · exact .inr (hpad _ h)
  · exact .inr (hpad _ h)

theorem paddedDecimal_ne_nil (width : Nat) (n : Int) : paddedDecimal width n ≠ [] := by
  unfold paddedDecimal
  split
  · exact List.cons_ne_nil _ _
  · rw [zeroPad, ne_eq, List.append_eq_nil_iff, not_and]
    exact fun _ => digitsBefore_ne_nil (.inl (Nat.succ_ne_zero _))

end Numeral

namespace Position

/-- Neither a line feed nor a blank nor a colon is in the number of a line or column. -/
theorem not_mem_number {b : UInt8} (hb : b ∈ [Text.lineFeed, Text.blank, 0x3A]) (n : Int) :
    b ∉ Numeral.paddedDecimal 2 n := by
  intro hmem
  have hdigit := Numeral.mem_paddedDecimal hmem
  simp only [List.mem_cons, List.not_mem_nil, or_false] at hb
  rcases hb with rfl | rfl | rfl <;> exact absurd hdigit (by decide)

theorem lineFeed_not_mem_text (p : Position) : Text.lineFeed ∉ p.text := by
  have hnumber := not_mem_number (b := Text.lineFeed) List.mem_cons_self
  simp only [text, List.mem_append, List.mem_cons, List.not_mem_nil, or_false, not_or]
  exact ⟨⟨hnumber _, by decide, hnumber _⟩, by decide, by decide⟩

/-- The first colon with a blank behind it ends the position. -/
theorem after?_text (p : Position) (rest : Text) :
    Text.after? ": " (p.text ++ rest) = some rest := by
  have hcolon := not_mem_number (b := 0x3A) (by decide)
  obtain ⟨d, digits, hdigits⟩ :=
    List.exists_cons_of_ne_nil (Numeral.paddedDecimal_ne_nil 2 p.column)
  have hblank : Text.blank ≠ d := by
    have hnot := not_mem_number (b := Text.blank) (by decide) p.column
    rw [hdigits, List.mem_cons, not_or] at hnot
    exact hnot.1
  -- the colon between the two numbers has a digit or a sign behind it
  have hbetween (behind : Text) : Text.after? [0x3A, 0x20] (0x3A :: (d :: behind)) =
      Text.after? [0x3A, 0x20] (d :: behind) := by
    have hno : List.isPrefixOf [0x3A, 0x20] (0x3A :: d :: behind) = false := by
      simpa [List.isPrefixOf_cons_cons, Text.blank] using hblank
    rw [Text.after?, hno, if_neg Bool.false_ne_true]
  calc Text.after? ": " (p.text ++ rest)
      = Text.after? [0x3A, 0x20] (Numeral.paddedDecimal 2 p.line ++
          (0x3A :: (Numeral.paddedDecimal 2 p.column ++ ([0x3A, 0x20] ++ rest)))) := by
        rw [text]
        simp only [List.append_assoc, List.cons_append]
        rfl
    _ = Text.after? [0x3A, 0x20] (Numeral.paddedDecimal 2 p.column ++ ([0x3A, 0x20] ++ rest)) := by
        rw [Text.after?_append _ (hcolon _), hdigits]
        exact hbetween _
    _ = some rest := by rw [Text.after?_append _ (hcolon _), Text.after?_self]

end Position

namespace Editor

/-- **The message of a diagnostic** is the first line of its fault's message, less the position. -/
theorem faultMessage_eq (fault : Fault) : faultMessage fault = fault.cause.message.firstLine := by
  rw [faultMessage, Fault.message, Text.firstLine_append fault.position.lineFeed_not_mem_text,
    Position.after?_text, Option.getD_some]

theorem fieldEnd_bounds {line : Text} {start : Nat} (h : start < line.length) :
    start ≤ fieldEnd line start ∧ fieldEnd line start ≤ line.length := by
  have hfield := (List.takeWhile_sublist (!isFieldBreak ·) (l := line.drop start)).length_le
  rw [List.length_drop] at hfield
  rw [fieldEnd, if_neg (by omega)]
  omega

end Editor

/-! ## Lines of a document -/

/-- **The line of a record** stands in the text under the record's number. Only carriage returns at
its end were left out of the record. -/
theorem Assembly.line_of_record {mode : Mode} {text : Text} {assembly : Assembly}
    (h : ofInput mode { text } = .ok assembly) {record : Record}
    (hrecord : record ∈ assembly.program.records) :
    ∃ k line, record.line = k + 1 ∧ (text.split Text.lineFeed)[k]? = some line ∧
      record.source = line.trimReturns := by
  obtain rfl := ofInput_eq_ok h
  obtain ⟨k, hk⟩ := List.mem_iff_getElem?.1 hrecord
  obtain ⟨hnumber, hline⟩ := number_ofLines hk
  have hfit : (text.rawLines.takeWhile (·.length ≤ Text.maxLine)).map Text.trimReturns =
      (Input.lines { text }).lines := rfl
  rw [← hfit, List.getElem?_map] at hline
  obtain ⟨line, hraw, hsource⟩ := Option.map_eq_some_iff.1 hline
  refine ⟨k, line, hnumber, ?_, hsource.symm⟩
  obtain ⟨rest, hrest⟩ := (List.takeWhile_prefix _).trans (Text.rawLines_isPrefix text)
  rw [← hrest, List.getElem?_append_left (List.getElem?_eq_some_iff.1 hraw).1, hraw]

/-! ## Diagnostics -/

namespace Editor

/-- A span inside a line of a document. It begins before the end of the line. -/
structure Span.Within (span : Span) (number : Nat) (line : Text) : Prop where
  startLine : span.start.line = number
  stopLine : span.stop.line = number
  start : 0 ≤ span.start.character ∧ span.start.character < line.length
  stop : span.start.character ≤ span.stop.character ∧ span.stop.character ≤ line.length

/-- A diagnostic shows a fault of a record in a document that is given by its lines. -/
structure Shows (lines : List Text) (site : Record × Fault) (diagnostic : Diagnostic) : Prop where
  /-- It stands in the line that the record was made of. -/
  placed : ∃ number line, site.1.line = number + 1 ∧ lines[number]? = some line ∧
    site.1.source = line.trimReturns ∧ diagnostic.span.Within number line
  /-- It says what the first line of the fault's message says behind the position. -/
  message : site.2.message.firstLine = site.2.position.text ++ diagnostic.message

/-- The faults of the records of an assembly, each with its record. -/
def sites (assembly : Assembly) : List (Record × Fault) :=
  assembly.program.records.flatMap fun record => record.faults.map fun fault => (record, fault)

theorem faultSpan_within {lines : List Text} {position : Position} {number : Nat} {line : Text}
    (hline : lines[number]? = some line) (hnumber : position.line = number + 1)
    (hcolumn : 1 ≤ position.column ∧ position.column ≤ line.length) :
    (faultSpan lines position).Within number line := by
  have hitem : itemAt? lines (position.line - 1) = some line := by
    rw [hnumber, Int.add_sub_cancel, itemAt?, if_neg (by omega), Int.toNat_natCast, hline]
  have hstart : (position.column - 1).toNat < line.length := by omega
  have hbounds := fieldEnd_bounds hstart
  simp only [faultSpan, hitem]
  constructor <;> simp only <;> omega

theorem snd_sites (mode : Mode) (lines : List Text) :
    (sites (.ofLines mode lines)).map Prod.snd = (Assembly.ofLines mode lines).faults := by
  rw [Assembly.faults_eq_flatMap, sites, List.map_flatMap]
  refine List.flatMap_congr fun record _ => ?_
  rw [List.map_map]
  exact List.map_id _

/-- **Every diagnostic** shows its fault in the document: there is one for each fault, in order, and
its span lies in the line of the record that has the fault. -/
theorem diagnostics_shown {mode : Mode} {text : Text} {assembly : Assembly}
    (h : Assembly.ofInput mode { text } = .ok assembly) :
    (sites assembly).map Prod.snd = assembly.faults ∧
      List.Forall₂ (Shows (text.split Text.lineFeed)) (sites assembly)
        (diagnosticsOf text assembly) := by
  obtain rfl := Assembly.ofInput_eq_ok h
  have hfaults := snd_sites mode (Input.lines { text }).lines
  refine ⟨hfaults, ?_⟩
  rw [diagnosticsOf, ← hfaults, List.map_map, List.forall₂_map_right_iff, List.forall₂_same]
  intro site hsite
  obtain ⟨record, hrecord, hsite⟩ := List.mem_flatMap.1 hsite
  obtain ⟨fault, hfault, rfl⟩ := List.mem_map.1 hsite
  obtain ⟨hline, hcolumn⟩ := Assembly.fault_liesIn hrecord hfault
  obtain ⟨number, line, hnumber, hget, hsource⟩ := Assembly.line_of_record h hrecord
  refine ⟨⟨number, line, hnumber, hget, hsource, ?_⟩, ?_⟩
  · have hlength : record.source.length ≤ line.length := by
      rw [hsource]
      exact (Text.trimEnd_isPrefix _ line).length_le
    have hplace : fault.position.line = number + 1 := by omega
    have hinside : 1 ≤ fault.position.column ∧ fault.position.column ≤ line.length := by omega
    exact faultSpan_within hget hplace hinside
  · rw [Fault.message, Text.firstLine_append fault.position.lineFeed_not_mem_text]
    exact congrArg _ (faultMessage_eq fault).symm

/-- A fault behind two blanks in a line with carriage returns, and one that concerns a missing field
in a last line without a line feed. -/
theorem diagnostics_shown_returns :
    ∃ assembly, Assembly.ofInput .xe { text := ". first\n  FOO 1\r\r\nBYTE" } = .ok assembly ∧
      List.Forall₂ (Shows [". first", "  FOO 1\r\r", "BYTE"]) (sites assembly)
        [⟨⟨⟨1, 2⟩, ⟨1, 5⟩⟩, "Invalid opcode 'FOO'"⟩,
          ⟨⟨⟨2, 0⟩, ⟨2, 4⟩⟩, "Invalid operand '': expected C'..', X'..' or a number"⟩] := by
  have hassembly : Assembly.ofInput .xe { text := ". first\n  FOO 1\r\r\nBYTE" } =
      .ok (.ofLines .xe [". first", "  FOO 1", "BYTE"]) := rfl
  have hitems : diagnosticsOf ". first\n  FOO 1\r\r\nBYTE"
      (.ofLines .xe [". first", "  FOO 1", "BYTE"]) =
        [⟨⟨⟨1, 2⟩, ⟨1, 5⟩⟩, "Invalid opcode 'FOO'"⟩,
          ⟨⟨⟨2, 0⟩, ⟨2, 4⟩⟩, "Invalid operand '': expected C'..', X'..' or a number"⟩] := by
    decide +kernel
  refine ⟨_, hassembly, ?_⟩
  rw [← hitems]
  exact (diagnostics_shown hassembly).2

end Editor

end SicXe
