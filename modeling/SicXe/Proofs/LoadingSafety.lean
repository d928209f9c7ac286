import SicXe.Proofs.CheckedAccess
import SicXe.Proofs.LoadingExact

/-!
# The loader stays inside its records and its memory

* `Checked.load`: the loader with a check at each access by position, to a record, to a field or
  constant in it, and to memory; `Checked.load_eq`: none is out of bounds.
* `load_outcome`: a run ends with a header and text records, read from lines at the beginning.
* `load_confined`: memory keeps its size and changes only in the range of the header that this run
  accepted; without one nothing changes, and a run that fails leaves the program counter.
-/

namespace SicXe

namespace Checked

open Machine (columns)

/-! ## Records -/

/-- The header that a record announces. -/
def readHeader (machine : Machine) (line : Nat) (record : Text) :
    Option (Except LoadError Header) := do
  if record.length ≠ 19 then return .error (.record line .malformedHeader)
  match ← decodeAddress (← slice record 7 13) with
  | .error _ => return .error (.record line .malformedStart)
  | .ok start =>
    match ← decodeAddress (← slice record 13 19) with
    | .error _ => return .error (.record line .malformedLength)
    | .ok length =>
      if machine.size < start + length then
        return .error (.address line machine.size (start + length))
      let name := (← slice record 1 7).trimEnd (· == Text.blank)
      return .ok { name, start, length }

/-- Address and bytes of a text record. -/
def readText (header : Header) (line : Nat) (record : Text) :
    Option (Except LoadError (UInt32 × Text)) := do
  if record.length < 9 then return .error (.record line .malformedText)
  match ← decodeAddress (← slice record 1 7) with
  | .error _ => return .error (.record line .malformedTextAddress)
  | .ok address =>
    match ← decodeAddress (← slice record 7 9) with
    | .error _ => return .error (.record line .malformedTextLength)
    | .ok size =>
      if Machine.maxText < size then return .error (.record line .malformedTextLength)
      let digits ← slice record 9 record.length
      match ← decodeConstant (0x58 :: Text.apostrophe :: (digits ++ [Text.apostrophe])) with
      | none => return .error (.record line .lengthMismatch)
      | some data =>
        let stop := header.start + header.length
        if digits.length ≠ 2 * size.toNat then return .error (.record line .lengthMismatch)
        if address < header.start ∨ stop < address + size then
          return .error (.address line stop (address + size))
        return .ok (address, data)

/-- The entry point of an end record. -/
def readEnd (machine : Machine) (line : Nat) (record : Text) :
    Option (Except LoadError UInt32) := do
  if record.length ≠ 7 then return .error (.record line .malformedEnd)
  match ← decodeAddress (← slice record 1 7) with
  | .error _ => return .error (.record line .malformedEntry)
  | .ok entry =>
    if entry < machine.size then return .ok entry
    return .error (.address line machine.size entry)

/-- Memory with bytes written from an address on, which may be the end of memory. -/
def write (memory : Array UInt8) (address : Nat) (data : Text) : Option (Array UInt8) :=
  if address ≤ memory.size then some (Machine.write memory address data) else none

/-- The lines from the given number on. -/
def loadLines (machine : Machine) (headed : Bool) (line : Nat) (failure : Option ReadError) :
    List Text → Option (Machine × Option LoadError)
  | [] =>
    match failure with
    | some error => some (machine, some (.reading error))
    | none => some (machine, some (.record (line - 1) .missingEnd))
  | record :: lines =>
    if record = [] then loadLines machine headed (line + 1) failure lines
    else do
      let letter ← record[0]?
      if letter = 0x48 then
        if headed then return (machine, some (.record line .duplicateHeader))
        else match ← readHeader machine line record with
          | .error error => return (machine, some error)
          | .ok header => loadLines { machine with header } true (line + 1) failure lines
      else if !headed then return (machine, some (.record line .expectedHeader))
      else if letter = 0x54 then
        match ← readText machine.header line record with
        | .error error => return (machine, some error)
        | .ok (address, data) =>
          let memory ← write machine.memory address.toNat data
          loadLines { machine with memory } headed (line + 1) failure lines
      else if letter = 0x45 then
        match ← readEnd machine line record with
        | .error error => return (machine, some error)
        | .ok entry => return ({ machine with counter := entry }, none)
      else return (machine, some (.record line (.unknownKind letter)))

/-- The machine after loading an object program. -/
def load (machine : Machine) (input : Input) : Option (Machine × Option LoadError) :=
  loadLines machine false 1 input.lines.failure input.lines.lines

/-! ## No access is out of bounds -/

theorem readHeader_eq (machine : Machine) (line : Nat) (record : Text) :
    readHeader machine line record = some (machine.readHeader line record) := by
  unfold readHeader Machine.readHeader
  by_cases hlength : record.length = 19
  swap
  · rw [if_pos hlength, if_pos hlength]
    rfl
  rw [if_neg (fun hne => hne hlength), if_neg (fun hne => hne hlength),
    slice_eq (by decide) (by omega), slice_eq (by decide) (by omega),
    slice_eq (by decide) (by omega)]
  simp only [Option.bind_eq_bind, Option.bind_some, decodeAddress_eq]
  cases Numeral.decodeAddress (columns record 7 13) with
  | error flaw => rfl
  | ok start =>
    dsimp only
    cases Numeral.decodeAddress (columns record 13 19) with
    | error flaw => rfl
    | ok length =>
      dsimp only
      split <;> rfl

theorem readEnd_eq (machine : Machine) (line : Nat) (record : Text) :
    readEnd machine line record = some (machine.readEnd line record) := by
  unfold readEnd Machine.readEnd
  by_cases hlength : record.length = 7
  swap
  · rw [if_pos hlength, if_pos hlength]
    rfl
  rw [if_neg (fun hne => hne hlength), if_neg (fun hne => hne hlength),
    slice_eq (by decide) (by omega)]
  simp only [Option.bind_eq_bind, Option.bind_some, decodeAddress_eq]
  cases Numeral.decodeAddress (columns record 1 7) with
  | error flaw => rfl
  | ok entry =>
    dsimp only
    split <;> rfl

theorem decode?_quoted (digits : Text) :
    Constant.decode? (0x58 :: Text.apostrophe :: (digits ++ [Text.apostrophe])) =
      Constant.content? .hexadecimal digits := by
  rw [Constant.decode?, Constant.split?, List.getLast?_concat, List.dropLast_concat,
    if_pos ⟨rfl, rfl⟩]
  rfl

theorem readText_eq (header : Header) (line : Nat) (record : Text) :
    readText header line record = some (Machine.readText header line record) := by
  unfold readText Machine.readText
  by_cases hlength : record.length < 9
  · rw [if_pos hlength, if_pos hlength]
    rfl
  rw [if_neg hlength, if_neg hlength, slice_eq (by decide) (by omega),
    slice_eq (by decide) (by omega), slice_drop (by omega)]
  simp only [Option.bind_eq_bind, Option.bind_some, decodeAddress_eq, decodeConstant_eq,
    decode?_quoted]
  cases Numeral.decodeAddress (columns record 1 7) with
  | error flaw => rfl
  | ok address =>
    dsimp only
    cases Numeral.decodeAddress (columns record 7 9) with
    | error flaw => rfl
    | ok size =>
      dsimp only
      by_cases hmax : Machine.maxText < size
      · rw [if_pos hmax, if_pos hmax]
        rfl
      · rw [if_neg hmax, if_neg hmax]
        cases Constant.content? .hexadecimal (record.drop 9) with
        | none => rfl
        | some data =>
          dsimp only
          split
          · rfl
          · split <;> rfl

section
variable (failure : Option ReadError)

open ObjectFormat

/-- **No access of a run is out of bounds.** The memory is written from an address in the range of
the header, and that range is in memory. -/
theorem loadLines_eq : ∀ (lines : List Text) (machine : Machine) (headed : Bool) (line : Nat),
    (headed = true →
      machine.header.start.toNat + machine.header.length.toNat ≤ machine.size.toNat) →
    loadLines machine headed line failure lines =
      some (machine.loadLines headed line failure lines)
  | [], machine, headed, line, _ => by cases failure <;> rfl
  | [] :: lines, machine, headed, line, h => by
    rw [loadLines, if_pos rfl, Machine.loadLines, loadLines_eq lines machine headed _ h]
  | (letter :: record) :: lines, machine, headed, line, h => by
    rw [loadLines, if_neg (List.cons_ne_nil _ _), List.getElem?_cons_zero, Option.bind_eq_bind,
      Option.bind_some, Machine.loadLines, readHeader_eq, readText_eq, readEnd_eq]
    by_cases hheader : letter = 0x48
    · subst hheader
      rw [if_pos rfl, if_pos rfl]
      cases headed with
      | true => rfl
      | false =>
        rcases header_cases machine.size line (show (0x48 :: record).head? = _ from rfl) with
          ⟨header, hrecord⟩ | ⟨error, hrecord⟩
        · rw [Machine.readHeader_of_isHeader line hrecord]
          exact loadLines_eq lines { machine with header } true _ fun _ => hrecord.fits
        · rw [Machine.readHeader_of_offence line hrecord]
          rfl
    rw [if_neg hheader, if_neg hheader]
    cases headed with
    | false => rfl
    | true =>
      have hheaded : ¬ (!true) = true := Bool.false_ne_true
      rw [if_neg hheaded, if_neg hheaded]
      by_cases htext : letter = 0x54
      · subst htext
        rw [if_pos rfl, if_pos rfl]
        have hfits := h rfl
        have hrange := Nat.lt_of_le_of_lt hfits machine.size.toNat_lt
        rcases text_cases line (show (0x54 :: record).head? = _ from rfl) hrange with
          ⟨text, hrecord⟩ | ⟨error, hrecord⟩
        · rw [Machine.readText_of_isText line hrange hrecord]
          have hmemory := machine.toNat_size_le
          have hhigh := hrecord.high
          dsimp only [Option.bind_eq_bind, Option.bind_some]
          rw [write, if_pos (by omega), Option.bind_some]
          exact loadLines_eq lines _ true _ fun _ => by
            rwa [Machine.size, Machine.size_write]
        · rw [Machine.readText_of_offence line hrange hrecord]
          rfl
      rw [if_neg htext, if_neg htext]
      by_cases hend : letter = 0x45
      · rw [if_pos hend, if_pos hend]
        cases machine.readEnd line (letter :: record) <;> rfl
      · rw [if_neg hend, if_neg hend]
        rfl

end

theorem load_eq (machine : Machine) (input : Input) :
    load machine input = some (machine.load input) :=
  loadLines_eq input.lines.failure input.lines.lines machine false 1 nofun

end Checked

/-! ## The header of a run -/

namespace ObjectFormat

theorem IsHeader.unique {size : Nat} {record : Text} {header other : Header}
    (h : IsHeader size record header) (h' : IsHeader size record other) : header = other := by
  obtain ⟨name, start, length⟩ := header
  obtain ⟨name', start', length'⟩ := other
  cases h.name.trans h'.name.symm
  cases h.start.symm.trans h'.start
  cases h.extent.symm.trans h'.extent
  rfl

theorem Offence.not_isHeader {size : UInt32} {line : Nat} {record : Text} {error : LoadError}
    (h : Offence size line record none error) (header : Header) :
    ¬ IsHeader size.toNat record header := by
  intro hheader
  cases h with
  | expectedHeader _ h => exact h hheader.letter
  | header _ h =>
    cases h with
    | length h => exact h hheader.length
    | start _ h => cases h.symm.trans hheader.start
    | extent _ _ h => cases h.symm.trans hheader.extent
    | beyond _ hstart hextent h _ =>
      cases hstart.symm.trans hheader.start
      cases hextent.symm.trans hheader.extent
      exact Nat.not_lt.2 hheader.fits h

/-- A header is accepted if the first of the lines that is not empty is its record. -/
def Accepts (size : Nat) (lines : List Text) (header : Header) : Prop :=
  ∃ record, (recordsOf lines).head? = some record ∧ IsHeader size record header

/-- The header behind lines at the beginning is the one that all the lines have. -/
theorem Body.accepts {size : Nat} {lines : List Text} {header : Header} {texts : List TextRecord}
    (h : Body size (recordsOf lines) (some header) texts) (rest : List Text) (other : Header) :
    Accepts size (lines ++ rest) other ↔ some header = some other := by
  obtain ⟨first, records, hrecords, hfirst, -⟩ := h
  have hhead : (recordsOf (lines ++ rest)).head? = some first := by
    rw [recordsOf, List.filter_append, ← recordsOf, hrecords]
    rfl
  constructor
  · rintro ⟨record, hrecord, hother⟩
    cases hhead.symm.trans hrecord
    rw [hfirst.unique hother]
  · rintro ⟨⟩
    exact ⟨first, hhead, hfirst⟩

/-- Behind empty lines, no header is accepted from a record with an offence. -/
theorem Offence.accepts {size : UInt32} {lines : List Text} {record : Text} {error : LoadError}
    {header? : Option Header} {texts : List TextRecord} {line : Nat}
    (h : Offence size line record header? error)
    (hbody : Body size.toNat (recordsOf lines) header? texts) (rest : List Text)
    (header : Header) :
    Accepts size.toNat (lines ++ record :: rest) header ↔ header? = some header := by
  cases header? with
  | some first => exact hbody.accepts _ header
  | none =>
    refine ⟨?_, nofun⟩
    rintro ⟨found, hfound, hheader⟩
    have hne : record ≠ [] := by
      rintro rfl
      cases h with
      | expectedHeader hne _ => exact hne rfl
      | header hletter _ => cases hletter
    rw [recordsOf, List.filter_append, ← recordsOf, hbody.1, List.nil_append,
      List.filter_cons_of_pos (by simpa using hne)] at hfound
    cases hfound
    exact absurd hheader (h.not_isHeader header)

end ObjectFormat

namespace Machine

open ObjectFormat

/-- **What a run leaves**: a header and text records, with the header if one was accepted, and a new
program counter only at an end record. -/
theorem load_outcome (machine : Machine) (input : Input) :
    ∃ header? texts counter, (∃ records, Body machine.size.toNat records header? texts) ∧
      (∀ header, Accepts machine.size.toNat input.lines.lines header ↔ header? = some header) ∧
      (machine.load input).1 = { machine.loaded header? texts with counter } ∧
      (∀ error, (machine.load input).2 = some error → counter = machine.counter) := by
  change ∃ header? texts counter, _ ∧ _ ∧
    (loadLines machine false 1 input.lines.failure input.lines.lines).1 = _ ∧
    ∀ error, (loadLines machine false 1 input.lines.failure input.lines.lines).2 = _ → _
  rcases lines_cases machine.size input.lines.lines with
    ⟨header?, texts, hbody⟩ | ⟨k, record, header?, texts, hk, hbody, hstop⟩
  · refine ⟨header?, texts, machine.counter, ⟨_, hbody⟩, fun header => ?_, ?_, fun _ _ => rfl⟩
    · cases header? with
      | some first => simpa using hbody.accepts [] header
      | none =>
        refine ⟨?_, nofun⟩
        rintro ⟨record, hrecord, -⟩
        rw [hbody.1] at hrecord
        cases hrecord
    · rw [loadLines_missing machine _ hbody]
      rfl
  · obtain ⟨hlt, hget⟩ := List.getElem?_eq_some_iff.1 hk
    have hlines : input.lines.lines =
        input.lines.lines.take k ++ record :: input.lines.lines.drop (k + 1) := by
      rw [← hget, ← List.drop_eq_getElem_cons hlt, List.take_append_drop]
    have hcount : (input.lines.lines.take k).length = k :=
      List.length_take_of_le (Nat.le_of_lt hlt)
    rw [hlines]
    rcases hstop with ⟨header, rfl, entry, hend⟩ | ⟨error, herror⟩
    · refine ⟨some header, texts, entry, ⟨_, hbody⟩, hbody.accepts _, ?_, ?_⟩
      · rw [loadLines_end machine _ _ hbody hend]
      · rw [loadLines_end machine _ _ hbody hend]
        nofun
    · rw [← hcount] at herror
      refine ⟨header?, texts, machine.counter, ⟨_, hbody⟩, herror.accepts hbody _, ?_,
        fun _ _ => rfl⟩
      rw [loadLines_offence machine _ _ hbody herror]
      rfl

/-- How a run keeps to its place. -/
structure Confined (machine : Machine) (input : Input) : Prop where
  /-- No access is out of bounds. -/
  checked : Checked.load machine input = some (machine.load input)
  size : (machine.load input).1.memory.size = machine.memory.size
  /-- A run that fails leaves the program counter. -/
  counter : ∀ error, (machine.load input).2 = some error →
    (machine.load input).1.counter = machine.counter
  /-- The range of the header that was accepted is in memory, and nothing else changes. -/
  range : ∀ header, Accepts machine.size.toNat input.lines.lines header →
    (machine.load input).1.header = header ∧
      header.start.toNat + header.length.toNat ≤ machine.memory.size ∧
      ∀ i : Nat, i < header.start.toNat ∨ header.start.toNat + header.length.toNat ≤ i →
        (machine.load input).1.memory[i]? = machine.memory[i]?
  /-- Without a header nothing changes. -/
  idle : (∀ header, ¬ Accepts machine.size.toNat input.lines.lines header) →
    (machine.load input).1.header = machine.header ∧
      (machine.load input).1.memory = machine.memory

/-- Text records in a range leave all other bytes. -/
theorem getElem?_writeTexts_of_outside {texts : List TextRecord} {memory : Array UInt8}
    {low high i : Nat} (hmemory : high ≤ memory.size)
    (h : ∀ text ∈ texts, low ≤ text.start.toNat ∧ text.start.toNat + text.data.length ≤ high)
    (hi : i < low ∨ high ≤ i) : (writeTexts memory texts)[i]? = memory[i]? := by
  have hnone : texts.reverse.findSome? (TextRecord.byteAt? · i) = none := by
    rw [List.findSome?_eq_none_iff]
    intro text htext
    obtain ⟨hlow, hhigh⟩ := h text (List.mem_reverse.1 htext)
    rw [TextRecord.byteAt?]
    split
    · exact List.getElem?_eq_none (by omega)
    · rfl
  rw [getElem?_writeTexts i fun text htext => Nat.le_trans (h text htext).2 hmemory, hnone,
    Option.none_or]

/-- **Loading is confined**: whatever the input is, no access is out of bounds, memory keeps its
size, and only the range of the header that this run accepted may change. -/
theorem load_confined (machine : Machine) (input : Input) : machine.Confined input := by
  obtain ⟨header?, texts, counter, ⟨records, hbody⟩, haccepts, hresult, hcounter⟩ :=
    machine.load_outcome input
  refine ⟨Checked.load_eq machine input, ?size, ?counter, ?range, ?idle⟩
  case size => rw [hresult, loaded, size_writeTexts]
  case counter =>
    intro error herror
    rw [hresult]
    exact hcounter error herror
  case range =>
    intro header hheader
    obtain rfl := (haccepts header).1 hheader
    have hmemory := Nat.le_trans (hbody.fits header rfl) machine.toNat_size_le
    rw [hresult]
    refine ⟨rfl, hmemory, fun i hi => getElem?_writeTexts_of_outside hmemory ?_ hi⟩
    intro text htext
    obtain ⟨_, ⟨⟩, hinside⟩ := hbody.inside text htext
    exact hinside
  case idle =>
    intro hnone
    cases header? with
    | some header => exact absurd ((haccepts header).2 rfl) (hnone header)
    | none =>
      obtain ⟨-, rfl⟩ := hbody
      rw [hresult]
      exact ⟨rfl, rfl⟩

end Machine

end SicXe
