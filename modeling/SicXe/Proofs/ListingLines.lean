import SicXe.Report.Listing
import SicXe.Proofs.Tokens

/-!
# The lines of a listing

A listing repeats parts of its source: comments, the fields of statements, and the texts that faults
are about. None of them can break a line, or be taken for a line of another kind.

* `Listing.Entry`, `Listing.entries`: the lines of a listing by what they are there for.
* `Listing.markerLead_isPrefix_iff`, `Listing.text_eq_successSummary`,
  `Listing.text_eq_successClosing`: lines that are told by how they begin.
* `Assembly.listing_eq_flatMap`, `Assembly.lineFeed_not_mem_text`: a listing consists of its
  entries, and each of them is one line.
* `Assembly.listing_lines`: so the markers are those of the faults, in order; the summary counts
  them, and success is told if there are none.
-/

namespace SicXe

theorem Text.lineFeed_not_mem_padRight (width : Nat) {t : Text} (h : lineFeed ∉ t) :
    lineFeed ∉ padRight width t := by
  rw [padRight, List.mem_append, not_or]
  exact ⟨h, fun hfeed => absurd (List.eq_of_mem_replicate hfeed) (by decide)⟩

/-- The fields of a statement hold no line feed. -/
theorem Statement.lineFeed_not_mem (line : Text) :
    Text.lineFeed ∉ (ofLine line).label ∧ Text.lineFeed ∉ (ofLine line).mnemonic ∧
      Text.lineFeed ∉ (ofLine line).operand := by
  have hfield : ∀ field ∈ line.fields, Text.lineFeed ∉ field := fun field hfield hfeed =>
    absurd (Text.isSpace_of_mem_field hfield hfeed) (by decide)
  rw [ofLine]
  generalize line.fields = fields at hfield
  rcases fields with _ | ⟨a, _ | ⟨b, _ | ⟨c, rest⟩⟩⟩
  · simp [ofFields]
  · simp_all [ofFields]
  · simp_all [ofFields]
  · simp only [List.forall_mem_cons] at hfield
    exact ⟨fun h => hfield.1 (List.mem_of_mem_take h), hfield.2.1, hfield.2.2.1⟩

/-! ## The lines of a listing -/

/-- The line of a record in a listing. -/
def Record.row (record : Record) : Text :=
  if record.content = .comment then
    Text.padRight 9 [] ++ record.source.trimEnd (fun b => b == Text.blank || b == Text.tab)
  else
    (Listing.columns (Numeral.hex 4 record.address.toNat) record.statement.label
      record.statement.mnemonic record.statement.operand).trimEnd (· == Text.blank)

namespace Listing

/-- A line of a listing, by what it is there for. -/
inductive Entry where
  /-- The number of faults. -/
  | summary (faults : Nat)
  | heading
  /-- The empty line below the heading. -/
  | gap
  | row (record : Record)
  /-- The line about a fault of the record above it. -/
  | marker (fault : Fault)
  | closing

/-- What the line about a fault begins with. -/
def markerLead : Text := ". !!! "

/-- The first line of a listing without faults. -/
def successSummary : Text := ". No errors detected"

/-- The last line of a listing without faults. -/
def successClosing : Text := "...No errors detected..."

/-- The text of a line, without its line feed. -/
def Entry.text : Entry → Text
  | .summary faults =>
    if faults = 0 then successSummary
    else Text.ofString ". " ++ Numeral.decimal faults ++ Text.ofString " error(s) detected"
  | .heading => "Loc      Label    Mnemonic Operand     "
  | .gap => []
  | .row record => record.row
  | .marker fault => markerLead ++ fault.message.firstLine
  | .closing => successClosing

/-- The lines for a record: its own, and one for each of its faults. -/
def entriesOf (record : Record) : List Entry := .row record :: record.faults.map .marker

/-- The lines for an assembly. -/
def entries (assembly : Assembly) : List Entry :=
  .summary assembly.faults.length :: .heading :: .gap ::
    (assembly.program.records.flatMap entriesOf ++
      if assembly.faults = [] then [.closing] else [])

/-- Whether a line is about a fault. -/
def Entry.isMarker : Entry → Bool
  | .marker _ => true
  | _ => false

/-! ## How a line begins -/

/-- The line of a record begins with a blank or with a digit of its address. -/
theorem head?_row (record : Record) : record.row.head? ≠ some commentMarker := by
  unfold Record.row
  split
  · exact (by decide : some Text.blank ≠ some commentMarker)
  · obtain ⟨b, rest, hhex⟩ := List.exists_cons_of_ne_nil (Numeral.hex_ne_nil 4 record.address.toNat)
    obtain ⟨d, hd, rfl⟩ := Numeral.mem_hex (hhex ▸ List.mem_cons_self)
    have hdigit : ∀ d < 16, Numeral.upperDigit d ≠ commentMarker ∧
        Numeral.upperDigit d ≠ Text.blank := by decide
    obtain ⟨hperiod, hblank⟩ := hdigit d hd
    rw [columns, Text.padRight, hhex]
    simp only [List.cons_append]
    rw [Text.trimEnd_cons (p := (· == Text.blank)) (beq_eq_false_iff_ne.2 hblank)]
    simpa using hperiod

/-- The number of faults in the summary begins with a digit. -/
theorem summary_digit {faults : Nat} (h : faults ≠ 0) :
    ∃ b, (Entry.summary faults).text[2]? = some b ∧ 0x30 ≤ b.toNat ∧ b.toNat ≤ 0x39 := by
  obtain ⟨b, rest, hdigits⟩ : ∃ b rest, Numeral.decimal faults = b :: rest :=
    List.exists_cons_of_ne_nil (Numeral.digitsBefore_ne_nil (.inl (Nat.succ_ne_zero faults)))
  refine ⟨b, ?_, Numeral.mem_decimal (hdigits ▸ List.mem_cons_self)⟩
  rw [Entry.text, if_neg h, hdigits]
  rfl

/-- **A line begins like a marker** if and only if it is one. -/
theorem markerLead_isPrefix_iff (entry : Entry) :
    markerLead <+: entry.text ↔ ∃ fault, entry = .marker fault := by
  constructor
  · rintro ⟨rest, htext⟩
    cases entry with
    | marker fault => exact ⟨fault, rfl⟩
    | summary faults =>
      have hthird : (Entry.summary faults).text[2]? = some 0x21 := by
        rw [← htext]
        rfl
      by_cases hzero : faults = 0
      · subst hzero
        exact absurd hthird (by decide +kernel)
      · obtain ⟨b, hb, hlow, -⟩ := summary_digit hzero
        obtain rfl : 0x21 = b := Option.some.inj (hthird.symm.trans hb)
        exact absurd hlow (by decide)
    | row record =>
      refine absurd ?_ (head?_row record)
      change (Entry.row record).text.head? = _
      rw [← htext]
      rfl
    | heading | gap | closing =>
      have hthird : some (0x21 : UInt8) = _ := congrArg (·[2]?) htext
      exact absurd hthird (by decide +kernel)
  · rintro ⟨fault, rfl⟩
    exact List.prefix_append _ _

theorem isPrefixOf_text (entry : Entry) :
    markerLead.isPrefixOf entry.text = entry.isMarker := by
  rw [Bool.eq_iff_iff, List.isPrefixOf_iff_prefix, markerLead_isPrefix_iff]
  cases entry <;> simp [Entry.isMarker]

theorem text_eq_successSummary {entry : Entry} (h : entry.text = successSummary) :
    entry = .summary 0 := by
  cases entry with
  | summary faults =>
    by_cases hzero : faults = 0
    · rw [hzero]
    · obtain ⟨b, hb, -, hhigh⟩ := summary_digit hzero
      rw [h] at hb
      obtain rfl : 0x4E = b := Option.some.inj hb
      exact absurd hhigh (by decide)
  | row record => exact absurd (congrArg List.head? h) (head?_row record)
  | marker fault =>
    have hthird : some (0x21 : UInt8) = some 0x4E := congrArg (·[2]?) h
    exact absurd hthird (by decide)
  | heading | gap | closing => exact absurd h (by decide +kernel)

theorem text_eq_successClosing {entry : Entry} (h : entry.text = successClosing) :
    entry = .closing := by
  cases entry with
  | summary faults =>
    have hsecond : (Entry.summary faults).text[1]? = some Text.blank := by
      rw [Entry.text]
      split <;> rfl
    rw [h] at hsecond
    exact absurd hsecond (by decide +kernel)
  | row record => exact absurd (congrArg List.head? h) (head?_row record)
  | marker fault =>
    have hsecond : some Text.blank = some commentMarker := congrArg (·[1]?) h
    exact absurd hsecond (by decide)
  | closing => rfl
  | heading | gap => exact absurd h (by decide +kernel)

theorem successSummary_mem_iff (assembly : Assembly) :
    successSummary ∈ (entries assembly).map Entry.text ↔ assembly.faults = [] := by
  rw [List.mem_map]
  constructor
  · rintro ⟨entry, hentry, htext⟩
    obtain rfl := text_eq_successSummary htext
    have hcount : 0 = assembly.faults.length := by
      simpa [entries, entriesOf] using hentry
    exact List.length_eq_zero_iff.1 hcount.symm
  · intro hnil
    exact ⟨.summary 0, by simp [entries, hnil], rfl⟩

theorem successClosing_mem_iff (assembly : Assembly) :
    successClosing ∈ (entries assembly).map Entry.text ↔ assembly.faults = [] := by
  rw [List.mem_map]
  constructor
  · rintro ⟨entry, hentry, htext⟩
    obtain rfl := text_eq_successClosing htext
    simpa [entries, entriesOf] using hentry
  · intro hnil
    exact ⟨.closing, by simp [entries, hnil], rfl⟩

/-! ## A listing line by line -/

theorem summary_eq_text (faults : Nat) :
    summary faults = (Entry.summary faults).text ++ [Text.lineFeed] := by
  by_cases hzero : faults = 0
  · rw [summary, Entry.text, if_pos hzero, if_pos hzero]
    decide +kernel
  · have hend : Text.ofString " error(s) detected\n" =
        Text.ofString " error(s) detected" ++ [Text.lineFeed] := by decide +kernel
    rw [summary, Entry.text, if_neg hzero, if_neg hzero, hend, ← List.append_assoc]

/-- The lines of a record, which has no faults if it is a comment. -/
theorem line_eq_flatMap {record : Record} (h : record.content = .comment → record.faults = []) :
    line false (.ofRecord record) =
      (entriesOf record).flatMap fun entry => entry.text ++ [Text.lineFeed] := by
  have hmarkers : (record.faults.map Fault.message).flatMap marker =
      (record.faults.map Entry.marker).flatMap fun entry => entry.text ++ [Text.lineFeed] := by
    rw [List.flatMap_map, List.flatMap_map]
    rfl
  rw [entriesOf, List.flatMap_cons, ← hmarkers]
  unfold line Entry.text Record.row
  by_cases hcomment : record.content = .comment
  · simp [Report.Line.ofRecord, hcomment, h hcomment, comment]
  · simp [Report.Line.ofRecord, hcomment, statement]

theorem lineFeed_not_mem_summary (faults : Nat) :
    Text.lineFeed ∉ (Entry.summary faults).text := by
  rw [Entry.text]
  split
  · decide +kernel
  · have hdecimal : Text.lineFeed ∉ Numeral.decimal faults := fun hdigit =>
      absurd (Numeral.mem_decimal hdigit).1 (by decide)
    simp only [List.mem_append, not_or]
    exact ⟨⟨by decide +kernel, hdecimal⟩, by decide +kernel⟩

theorem lineFeed_not_mem_marker (fault : Fault) :
    Text.lineFeed ∉ (Entry.marker fault).text := by
  simp only [Entry.text, List.mem_append, not_or]
  exact ⟨by decide +kernel, Text.lineFeed_not_mem_firstLine _⟩

end Listing

namespace Assembly

variable {mode : Mode} {lines : List Text} {record : Record}

theorem faults_of_comment (h : record ∈ (ofLines mode lines).program.records)
    (hcomment : record.content = .comment) : record.faults = [] := by
  rw [List.eq_nil_iff_forall_not_mem]
  intro fault hfault
  cases hfree : (ofLines mode lines).program.errorFree with
  | false =>
    rw [ofLines_of_faulty hfree] at h
    obtain ⟨k, hk⟩ := List.mem_iff_getElem?.1 h
    obtain ⟨-, step⟩ := Layout.record_step hk
    rw [step.found] at hfault
    rw [step.content] at hcomment
    exact Layout.contentOf_ne_comment _ (Layout.mem_lineFaults hfault).1 hcomment
  | true =>
    obtain ⟨k, hk⟩ := List.mem_iff_getElem?.1 h
    rw [ofLines_eq hfree] at hk
    obtain ⟨laid, hlaid, rfl⟩ := ObjectCode.record_settled rfl hk
    rw [ObjectCode.settled, faults_of_errorFree hfree laid (List.mem_of_getElem? hlaid),
      List.nil_append] at hfault
    exact (ObjectCode.mem_found hfault).1 hcomment

/-- **A listing** is made of its entries, each on a line of its own. -/
theorem listing_eq_flatMap (mode : Mode) (lines : List Text) :
    (ofLines mode lines).report.listing =
      (Listing.entries (ofLines mode lines)).flatMap fun entry =>
        entry.text ++ [Text.lineFeed] := by
  have hrows : (ofLines mode lines).report.lines.flatMap (Listing.line false) =
      ((ofLines mode lines).program.records.flatMap Listing.entriesOf).flatMap fun entry =>
        entry.text ++ [Text.lineFeed] := by
    rw [report, List.flatMap_map, List.flatMap_assoc]
    exact List.flatMap_congr fun record hrecord =>
      Listing.line_eq_flatMap (faults_of_comment hrecord)
  have hheading : Listing.heading [] = [Listing.Entry.heading, .gap].flatMap fun entry =>
      entry.text ++ [Text.lineFeed] := by decide +kernel
  have hclosing : Listing.closing (ofLines mode lines).faults.length =
      (if (ofLines mode lines).faults = [] then [.closing] else []).flatMap
        fun entry : Listing.Entry => entry.text ++ [Text.lineFeed] := by
    rw [Listing.closing]
    by_cases hnil : (ofLines mode lines).faults = []
    · rw [if_pos hnil, if_pos (by rw [hnil]; rfl)]
      decide +kernel
    · rw [if_neg hnil, if_neg (by rwa [List.length_eq_zero_iff])]
      rfl
  have hcount : (ofLines mode lines).report.messages.length = (ofLines mode lines).faults.length :=
    List.length_map _
  rw [Report.listing, hcount, hrows, hheading, hclosing, Listing.summary_eq_text, Listing.entries]
  simp only [List.flatMap_cons, List.flatMap_nil, List.flatMap_append, List.append_assoc,
    List.append_nil]

/-! ## Lines stay lines -/

theorem lineFeed_not_mem_statement (h : record ∈ (ofLines mode lines).program.records) :
    Text.lineFeed ∉ record.statement.label ∧ Text.lineFeed ∉ record.statement.mnemonic ∧
      Text.lineFeed ∉ record.statement.operand := by
  obtain ⟨k, hk⟩ := List.mem_iff_getElem?.1 h
  obtain ⟨laid, hlaid, hbare⟩ := bare_mem_layout hk
  obtain ⟨-, step⟩ := Layout.record_step hlaid
  have hstatement : record.statement = laid.statement := (congrArg Record.statement hbare :)
  rw [hstatement, step.statement]
  split
  · simp
  · exact Statement.lineFeed_not_mem laid.source

theorem lineFeed_not_mem_row (hlines : ∀ line ∈ lines, Text.lineFeed ∉ line)
    (h : record ∈ (ofLines mode lines).program.records) : Text.lineFeed ∉ record.row := by
  intro hfeed
  unfold Record.row at hfeed
  split at hfeed
  · rcases List.mem_append.1 hfeed with hfeed | hfeed
    · exact Text.lineFeed_not_mem_padRight 9 List.not_mem_nil hfeed
    · obtain ⟨k, hk⟩ := List.mem_iff_getElem?.1 h
      exact hlines _ (List.mem_of_getElem? (number_ofLines hk).2)
        ((Text.trimEnd_isPrefix _ _).subset hfeed)
  · have hcolumns := (Text.trimEnd_isPrefix _ _).subset hfeed
    have hhex : Text.lineFeed ∉ Numeral.hex 4 record.address.toNat := fun hdigit =>
      absurd (Numeral.isHexDigit_of_mem_hex hdigit) (by decide)
    obtain ⟨hlabel, hmnemonic, hoperand⟩ := lineFeed_not_mem_statement h
    simp only [Listing.columns, List.mem_append] at hcolumns
    rcases hcolumns with ((hc | hc) | hc) | hc
    · exact Text.lineFeed_not_mem_padRight 9 hhex hc
    · exact Text.lineFeed_not_mem_padRight 9 hlabel hc
    · exact Text.lineFeed_not_mem_padRight 9 hmnemonic hc
    · exact Text.lineFeed_not_mem_padRight 12 hoperand hc

/-- No line is broken by what it shows. -/
theorem lineFeed_not_mem_text (mode : Mode) (hlines : ∀ line ∈ lines, Text.lineFeed ∉ line) :
    ∀ entry ∈ Listing.entries (ofLines mode lines), Text.lineFeed ∉ entry.text := by
  simp only [Listing.entries, List.forall_mem_cons, List.forall_mem_append, List.mem_flatMap]
  refine ⟨Listing.lineFeed_not_mem_summary _, by decide +kernel, List.not_mem_nil, ?records,
    ?closing⟩
  case records =>
    rintro entry ⟨record, hrecord, hentry⟩
    rcases List.mem_cons.1 hentry with rfl | hentry
    · exact lineFeed_not_mem_row hlines hrecord
    · obtain ⟨fault, -, rfl⟩ := List.mem_map.1 hentry
      exact Listing.lineFeed_not_mem_marker fault
  case closing =>
    intro entry hentry
    split at hentry
    · rw [List.mem_singleton.1 hentry]
      decide +kernel
    · cases hentry

/-! ## What the lines tell -/

/-- The lines that begin like markers are those about the faults, in order. -/
theorem filter_markerLead (mode : Mode) (lines : List Text) :
    ((Listing.entries (ofLines mode lines)).map Listing.Entry.text).filter
        Listing.markerLead.isPrefixOf =
      (ofLines mode lines).faults.map fun fault => (Listing.Entry.marker fault).text := by
  have hrecord (record : Record) :
      (Listing.entriesOf record).filter Listing.Entry.isMarker = record.faults.map .marker := by
    simp [Listing.entriesOf, Listing.Entry.isMarker]
  have hentries : (Listing.entries (ofLines mode lines)).filter Listing.Entry.isMarker =
      (ofLines mode lines).faults.map .marker := by
    have hclosing : (if (ofLines mode lines).faults = [] then [.closing] else []).filter
        Listing.Entry.isMarker = [] := by
      split <;> rfl
    rw [Listing.entries]
    simp only [List.filter_cons, Listing.Entry.isMarker, Bool.false_eq_true, ↓reduceIte,
      List.filter_append, hclosing, List.append_nil, List.filter_flatMap, hrecord]
    rw [faults_eq_flatMap, List.map_flatMap]
  have hlead : Listing.markerLead.isPrefixOf ∘ Listing.Entry.text = Listing.Entry.isMarker :=
    funext Listing.isPrefixOf_text
  rw [List.filter_map, hlead, hentries, List.map_map]
  rfl

/-- What the lines of a listing tell about an assembly. -/
structure Listed (assembly : Assembly) : Prop where
  /-- The listing consists of its entries, each with a line feed behind it. -/
  written : assembly.report.listing =
    (Listing.entries assembly).flatMap fun entry => entry.text ++ [Text.lineFeed]
  /-- Each entry is one line. -/
  lines : assembly.report.listing.rawLines = (Listing.entries assembly).map Listing.Entry.text
  /-- A line begins like a marker only where it is one. -/
  marked : ∀ entry ∈ Listing.entries assembly,
    Listing.markerLead <+: entry.text ↔ ∃ fault, entry = .marker fault
  /-- The markers are those of the faults, in order. -/
  markers : assembly.report.listing.rawLines.filter Listing.markerLead.isPrefixOf =
    assembly.faults.map fun fault => Listing.markerLead ++ fault.message.firstLine
  /-- The first line tells the number of the markers. -/
  summary : assembly.report.listing.rawLines.head? =
    some (Listing.Entry.summary (assembly.report.listing.rawLines.countP
      Listing.markerLead.isPrefixOf)).text
  /-- Success is told twice, and only of a program without a marker. -/
  success : ∀ line ∈ [Listing.successSummary, Listing.successClosing],
    line ∈ assembly.report.listing.rawLines ↔
      assembly.report.listing.rawLines.countP Listing.markerLead.isPrefixOf = 0

/-- **The lines of a listing** can be told apart, whatever the source holds. -/
theorem listing_lines {mode : Mode} {input : Input} {assembly : Assembly}
    (h : ofInput mode input = .ok assembly) : Listed assembly := by
  obtain rfl := ofInput_eq_ok h
  have hwritten := listing_eq_flatMap mode input.lines.lines
  have hlines : (ofLines mode input.lines.lines).report.listing.rawLines =
      (Listing.entries (ofLines mode input.lines.lines)).map Listing.Entry.text := by
    have hfeed := lineFeed_not_mem_text mode fun line (hline : line ∈ input.lines.lines) =>
      Input.lineFeed_not_mem_lines hline
    have hread := Text.rawLines_flatMap (List.forall_mem_map.2 hfeed)
    rwa [List.flatMap_map, ← hwritten] at hread
  have hmarkers := filter_markerLead mode input.lines.lines
  have hcount : (ofLines mode input.lines.lines).report.listing.rawLines.countP
      Listing.markerLead.isPrefixOf = (ofLines mode input.lines.lines).faults.length := by
    rw [hlines, List.countP_eq_length_filter, hmarkers, List.length_map]
  refine ⟨hwritten, hlines, fun entry _ => Listing.markerLead_isPrefix_iff entry,
    hlines ▸ hmarkers, ?summary, ?success⟩
  case summary =>
    rw [hcount, hlines]
    rfl
  case success =>
    rw [hcount, hlines, List.length_eq_zero_iff]
    simp only [List.forall_mem_cons]
    exact ⟨Listing.successSummary_mem_iff _, Listing.successClosing_mem_iff _, nofun⟩

/-- A comment that looks like a marker, and a statement with two faults. -/
theorem listing_lines_forged :
    ∃ assembly,
      ofInput .xe { text := ". !!! 01:01: none\nA WORD 1\r\nA BYTE 300\n" } = .ok assembly ∧
      assembly.report.listing.rawLines.filter Listing.markerLead.isPrefixOf =
        [". !!! 03:01: Duplicate symbol 'A'",
         ". !!! 03:08: Invalid operand '300': value does not fit in a byte"] := by
  have hassembly : ofInput .xe { text := ". !!! 01:01: none\nA WORD 1\r\nA BYTE 300\n" } =
      .ok (ofLines .xe [". !!! 01:01: none", "A WORD 1", "A BYTE 300"]) := rfl
  refine ⟨_, hassembly, ?_⟩
  rw [(listing_lines hassembly).markers]
  decide +kernel

end Assembly

end SicXe
