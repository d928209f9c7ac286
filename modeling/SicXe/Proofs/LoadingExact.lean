import Mathlib.Data.List.Forall2
import Mathlib.Data.List.Induction
import SicXe.Proofs.ObjectFormat

/-!
# What the loader accepts, and what it then leaves in memory

* `recordsOf`, `Body`: the records of lines, and those that begin an object program.
* `loadLines_body`: the run over such lines; `lines_cases`: lines are such, or there is a first one
  that ends them.
* `IsObjectProgram`, `Fails`: the whole inputs that are accepted and refused; `program_or_fails`:
  there are no others.
* `getElem?_writeTexts`: of two text records with the same address the later one wins.
* `load_exact`: the loader accepts an input if and only if it is an object program, and leaves
  exactly the machine that it describes; otherwise it reports the first offence with its line.
-/

namespace SicXe

/-- The byte that a text record has for an address. -/
def TextRecord.byteAt? (text : TextRecord) (address : Nat) : Option UInt8 :=
  if text.start.toNat ≤ address then text.data[address - text.start.toNat]? else none

namespace ObjectFormat

/-! ## Lines that begin an object program -/

/-- The lines that are not empty. -/
def recordsOf (lines : List Text) : List Text := lines.filter (· ≠ [])

/-- Records that begin an object program: none at all, or a header record with text records. -/
def Body (size : Nat) (records : List Text) : Option Header → List TextRecord → Prop
  | none, texts => records = [] ∧ texts = []
  | some header, texts => ∃ first rest, records = first :: rest ∧ IsHeader size first header ∧
      List.Forall₂ (IsText header) rest texts

section
variable {size : Nat} {records : List Text} {header? : Option Header} {texts : List TextRecord}
  {record : Text} {header : Header}

theorem Body.fits (h : Body size records header? texts) :
    ∀ header, header? = some header → header.start.toNat + header.length.toNat ≤ size := by
  rintro header rfl
  obtain ⟨first, rest, -, hfirst, -⟩ := h
  exact hfirst.fits

theorem Body.push_header (h : Body size records none texts) (hrecord : IsHeader size record header) :
    Body size (records ++ [record]) (some header) [] := by
  obtain ⟨rfl, -⟩ := h
  exact ⟨record, [], rfl, hrecord, .nil⟩

theorem Body.push_text {text : TextRecord} (h : Body size records (some header) texts)
    (hrecord : IsText header record text) :
    Body size (records ++ [record]) (some header) (texts ++ [text]) := by
  obtain ⟨first, rest, rfl, hfirst, hrest⟩ := h
  exact ⟨first, rest ++ [record], rfl, hfirst, List.rel_append hrest (.cons hrecord .nil)⟩

/-- Text records lie in the range of the header. -/
theorem Body.inside (h : Body size records header? texts) :
    ∀ text ∈ texts, ∃ header, header? = some header ∧
      header.start.toNat ≤ text.start.toNat ∧
      text.start.toNat + text.data.length ≤ header.start.toNat + header.length.toNat := by
  intro text htext
  cases header? with
  | none =>
    rw [h.2] at htext
    cases htext
  | some header =>
    obtain ⟨first, rest, -, -, hrest⟩ := h
    obtain ⟨hlength, hget⟩ := List.forall₂_iff_get.1 hrest
    obtain ⟨j, rfl⟩ := List.mem_iff_get.1 htext
    have hrecord := hget j (by rw [hlength]; exact j.isLt) j.isLt
    exact ⟨header, rfl, hrecord.low, hrecord.high⟩

end

theorem recordsOf_concat (lines : List Text) (line : Text) :
    recordsOf (lines ++ [line]) = recordsOf lines ++ if line = [] then [] else [line] := by
  rw [recordsOf, List.filter_append]
  by_cases h : line = [] <;> simp [h, recordsOf]

/-- **Lines begin an object program, or there is a first one that does not fit**: an end record, or
an offence. -/
theorem lines_cases (size : UInt32) (lines : List Text) :
    (∃ header? texts, Body size.toNat (recordsOf lines) header? texts) ∨
      ∃ (k : Nat) (record : Text) (header? : Option Header) (texts : List TextRecord),
        lines[k]? = some record ∧ Body size.toNat (recordsOf (lines.take k)) header? texts ∧
        ((∃ header, header? = some header ∧ ∃ entry, IsEnd size.toNat record entry) ∨
          ∃ error, Offence size (k + 1) record header? error) := by
  induction lines using List.reverseRecOn with
  | nil => exact .inl ⟨none, [], rfl, rfl⟩
  | append_singleton lines record ih =>
    rcases ih with ⟨header?, texts, hbody⟩ | ⟨k, stop, header?, texts, hk, hbody, hstop⟩
    · by_cases hne : record = []
      · refine .inl ⟨header?, texts, ?_⟩
        rwa [recordsOf_concat, if_pos hne, List.append_nil]
      have hsize := size.toNat_lt
      have hfits : ∀ header, header? = some header →
          header.start.toNat + header.length.toNat < 2 ^ 32 := fun header hheader =>
        Nat.lt_of_le_of_lt (hbody.fits header hheader) hsize
      have hconcat : recordsOf (lines ++ [record]) = recordsOf lines ++ [record] := by
        rw [recordsOf_concat, if_neg hne]
      rcases record_cases size (lines.length + 1) hne hfits with
        ⟨rfl, header, h⟩ | ⟨header, rfl, text, h⟩ | hstop
      · exact .inl ⟨some header, [], hconcat ▸ hbody.push_header h⟩
      · exact .inl ⟨some header, texts ++ [text], hconcat ▸ hbody.push_text h⟩
      · refine .inr ⟨lines.length, record, header?, texts, List.getElem?_concat_length, ?_, hstop⟩
        rwa [List.take_left]
    · have hlt := (List.getElem?_eq_some_iff.1 hk).1
      refine .inr ⟨k, stop, header?, texts, ?_, ?_, hstop⟩
      · rwa [List.getElem?_append_left hlt]
      · rwa [List.take_append_of_le_length (Nat.le_of_lt hlt)]

end ObjectFormat

namespace Machine

open ObjectFormat

/-! ## Runs of the loader -/

/-- Memory with the bytes of text records, one record after the other. -/
def writeTexts (memory : Array UInt8) (texts : List TextRecord) : Array UInt8 :=
  texts.foldl (fun memory text => write memory text.start.toNat text.data) memory

/-- The machine after a header and text records; without a header it keeps its own. -/
def loaded (machine : Machine) (header? : Option Header) (texts : List TextRecord) : Machine :=
  { machine with
    header := header?.getD machine.header
    memory := writeTexts machine.memory texts }

theorem size_write : ∀ (data : Text) (memory : Array UInt8) (address : Nat),
    (write memory address data).size = memory.size
  | [], _, _ => rfl
  | b :: data, memory, address => by rw [write, size_write, Array.size_setIfInBounds]

theorem size_writeTexts : ∀ (texts : List TextRecord) (memory : Array UInt8),
    (writeTexts memory texts).size = memory.size
  | [], _ => rfl
  | text :: texts, memory => by
    rw [writeTexts, List.foldl_cons, ← writeTexts, size_writeTexts, size_write]

theorem size_loaded (machine : Machine) (header? : Option Header) (texts : List TextRecord) :
    (machine.loaded header? texts).size = machine.size :=
  congrArg UInt32.ofNat (size_writeTexts texts machine.memory)

section
variable {machine : Machine} {record : Text} (line : Nat) (failure : Option ReadError)
  (lines : List Text)

theorem loadLines_of_isHeader {header : Header} (h : IsHeader machine.size.toNat record header) :
    loadLines machine false line failure (record :: lines) =
      loadLines { machine with header } true (line + 1) failure lines := by
  have hread := readHeader_of_isHeader line h
  obtain ⟨rest, rfl⟩ := List.head?_eq_some_iff.1 h.letter
  rw [loadLines, if_pos rfl, if_neg Bool.false_ne_true, hread]

theorem loadLines_of_isText {text : TextRecord} (h : IsText machine.header record text)
    (hfits : machine.header.start.toNat + machine.header.length.toNat ≤ machine.size.toNat) :
    loadLines machine true line failure (record :: lines) =
      loadLines { machine with memory := write machine.memory text.start.toNat text.data } true
        (line + 1) failure lines := by
  have hread := readText_of_isText line (Nat.lt_of_le_of_lt hfits machine.size.toNat_lt) h
  obtain ⟨rest, rfl⟩ := List.head?_eq_some_iff.1 h.letter
  rw [loadLines, if_neg (by decide), if_neg (by decide), if_pos rfl, hread]

theorem loadLines_of_isEnd {entry : UInt32} (h : IsEnd machine.size.toNat record entry) :
    loadLines machine true line failure (record :: lines) =
      ({ machine with counter := entry }, none) := by
  have hread := readEnd_of_isEnd line h
  obtain ⟨rest, rfl⟩ := List.head?_eq_some_iff.1 h.letter
  rw [loadLines, if_neg (by decide), if_neg (by decide), if_neg (by decide), if_pos rfl, hread]

/-- **The first offence ends the run**, and changes nothing. -/
theorem loadLines_of_offence {header? : Option Header} {error : LoadError}
    (h : Offence machine.size line record header? error)
    (hheader : ∀ header, header? = some header → machine.header = header ∧
      header.start.toNat + header.length.toNat ≤ machine.size.toNat) :
    loadLines machine header?.isSome line failure (record :: lines) = (machine, some error) := by
  have hsize := machine.size.toNat_lt
  cases h with
  | expectedHeader hne h =>
    obtain ⟨letter, rest, rfl⟩ := List.exists_cons_of_ne_nil hne
    rw [List.head?_cons, ne_eq, Option.some.injEq] at h
    rw [Option.isSome_none, loadLines, if_neg h, Bool.not_false, if_pos rfl]
  | duplicateHeader h =>
    obtain ⟨rest, rfl⟩ := List.head?_eq_some_iff.1 h
    rw [Option.isSome_some, loadLines, if_pos rfl, if_pos rfl]
  | unknownKind hletter h =>
    obtain ⟨rest, rfl⟩ := List.head?_eq_some_iff.1 hletter
    simp only [List.mem_cons, List.not_mem_nil, or_false, not_or] at h
    rw [Option.isSome_some, loadLines, if_neg h.1, if_neg (by decide), if_neg h.2.1, if_neg h.2.2]
  | header hletter h =>
    have hread := readHeader_of_offence line h
    obtain ⟨rest, rfl⟩ := List.head?_eq_some_iff.1 hletter
    rw [Option.isSome_none, loadLines, if_pos rfl, if_neg (by decide), hread]
  | text hletter h =>
    obtain ⟨rfl, hfits⟩ := hheader _ rfl
    have hread := readText_of_offence line (Nat.lt_of_le_of_lt hfits hsize) h
    obtain ⟨rest, rfl⟩ := List.head?_eq_some_iff.1 hletter
    rw [Option.isSome_some, loadLines, if_neg (by decide), if_neg (by decide), if_pos rfl, hread]
  | finish hletter h =>
    have hread := readEnd_of_offence line h
    obtain ⟨rest, rfl⟩ := List.head?_eq_some_iff.1 hletter
    rw [Option.isSome_some, loadLines, if_neg (by decide), if_neg (by decide), if_neg (by decide),
      if_pos rfl, hread]

end

section
variable (failure : Option ReadError) (rest : List Text)

/-- Text records behind a header are all written; empty lines between them only count. -/
theorem loadLines_isTexts : ∀ {lines : List Text} {texts : List TextRecord} (machine : Machine)
    (line : Nat), List.Forall₂ (IsText machine.header) (recordsOf lines) texts →
    machine.header.start.toNat + machine.header.length.toNat ≤ machine.size.toNat →
    loadLines machine true line failure (lines ++ rest) =
      loadLines { machine with memory := writeTexts machine.memory texts } true
        (line + lines.length) failure rest
  | [], texts, machine, line, h, _ => by
    cases h
    rfl
  | [] :: lines, texts, machine, line, h, hfits => by
    change List.Forall₂ _ (recordsOf lines) texts at h
    rw [List.cons_append, loadLines, loadLines_isTexts machine _ h hfits, List.length_cons,
      Nat.add_assoc, Nat.add_comm 1]
  | (b :: record) :: lines, texts, machine, line, h, hfits => by
    change List.Forall₂ _ ((b :: record) :: recordsOf lines) texts at h
    cases h with
    | @cons _ text _ texts hrecord htexts =>
      let next : Machine :=
        { machine with memory := write machine.memory text.start.toNat text.data }
      have hsize : next.size = machine.size := congrArg UInt32.ofNat (size_write _ _ _)
      rw [List.cons_append, loadLines_of_isText line failure _ hrecord hfits,
        loadLines_isTexts next _ htexts (hsize ▸ hfits), List.length_cons, Nat.add_assoc,
        Nat.add_comm 1]
      rfl

/-- **The run over lines that begin an object program.** -/
theorem loadLines_body (machine : Machine) {header? : Option Header} {texts : List TextRecord} :
    ∀ {lines : List Text} (line : Nat),
      Body machine.size.toNat (recordsOf lines) header? texts →
      loadLines machine false line failure (lines ++ rest) =
        loadLines (machine.loaded header? texts) header?.isSome (line + lines.length) failure rest
  | [], line, h => by
    cases header? with
    | none =>
      obtain ⟨-, rfl⟩ := h
      rfl
    | some header =>
      obtain ⟨first, records, hrecords, -⟩ := h
      cases hrecords
  | [] :: lines, line, h => by
    change Body _ (recordsOf lines) header? texts at h
    rw [List.cons_append, loadLines, loadLines_body machine _ h, List.length_cons, Nat.add_assoc,
      Nat.add_comm 1]
  | (b :: record) :: lines, line, h => by
    cases header? with
    | none => cases h.1
    | some header =>
      obtain ⟨first, records, hrecords, hfirst, htexts⟩ := h
      cases hrecords
      rw [List.cons_append, loadLines_of_isHeader line failure _ hfirst,
        loadLines_isTexts failure rest { machine with header } _ htexts hfirst.fits,
        List.length_cons, Nat.add_assoc, Nat.add_comm 1]
      rfl

end

/-! ## The three ends of a run -/

section
variable (machine : Machine) (failure : Option ReadError) {lines : List Text}
  {header? : Option Header} {texts : List TextRecord}

/-- A run over lines without an end record. -/
theorem loadLines_missing (h : Body machine.size.toNat (recordsOf lines) header? texts) :
    loadLines machine false 1 failure lines = (machine.loaded header? texts,
      some (failure.elim (.record lines.length .missingEnd) LoadError.reading)) := by
  have hrun := loadLines_body failure [] machine 1 h
  rw [List.append_nil] at hrun
  rw [hrun]
  cases failure with
  | some error => rfl
  | none =>
    have hcount : ((1 + lines.length : Nat) : Int) - 1 = lines.length := by omega
    rw [loadLines, hcount]
    rfl

theorem loadLines_end {header : Header} {record : Text} {entry : UInt32} (rest : List Text)
    (h : Body machine.size.toNat (recordsOf lines) (some header) texts)
    (hend : IsEnd machine.size.toNat record entry) :
    loadLines machine false 1 failure (lines ++ record :: rest) =
      ({ machine.loaded (some header) texts with counter := entry }, none) := by
  rw [← size_loaded machine (some header) texts] at hend
  rw [loadLines_body _ _ machine 1 h, Option.isSome_some, loadLines_of_isEnd _ _ _ hend]

theorem loadLines_offence {record : Text} {error : LoadError} (rest : List Text)
    (h : Body machine.size.toNat (recordsOf lines) header? texts)
    (hrecord : Offence machine.size (lines.length + 1) record header? error) :
    loadLines machine false 1 failure (lines ++ record :: rest) =
      (machine.loaded header? texts, some error) := by
  have hheader : ∀ header, header? = some header →
      (machine.loaded header? texts).header = header ∧
        header.start.toNat + header.length.toNat ≤ (machine.loaded header? texts).size.toNat := by
    rintro header rfl
    rw [size_loaded]
    exact ⟨rfl, h.fits header rfl⟩
  rw [← size_loaded machine header? texts] at hrecord
  rw [loadLines_body _ _ machine 1 h, Nat.add_comm 1, loadLines_of_offence _ _ rest hrecord hheader]

end

/-! ## Memory -/

theorem getElem?_write : ∀ {data : Text} {memory : Array UInt8} {address : Nat},
    address + data.length ≤ memory.size → ∀ i : Nat,
    (write memory address data)[i]? =
      (if address ≤ i then data[i - address]? else none).or memory[i]?
  | [], memory, address, _, i => by
    rw [write, List.getElem?_nil, ite_self, Option.none_or]
  | b :: data, memory, address, h, i => by
    rw [List.length_cons] at h
    rw [write, getElem?_write (by rw [Array.size_setIfInBounds]; omega),
      Array.getElem?_setIfInBounds]
    rcases Nat.lt_trichotomy i address with hlt | rfl | hgt
    · rw [if_neg (by omega), if_neg (by omega), if_neg (by omega)]
    · rw [if_neg (by omega), if_pos rfl, if_pos (by omega), if_pos (Nat.le_refl _), Nat.sub_self]
      rfl
    · obtain ⟨j, rfl⟩ : ∃ j, i = address + 1 + j := ⟨i - (address + 1), by omega⟩
      rw [if_pos (by omega), if_neg (by omega), if_pos (by omega), Nat.add_sub_cancel_left,
        show address + 1 + j - address = j + 1 by omega, List.getElem?_cons_succ]

/-- **The last text record that has an address decides its byte**; other bytes stay. -/
theorem getElem?_writeTexts (i : Nat) : ∀ {texts : List TextRecord} {memory : Array UInt8},
    (∀ text ∈ texts, text.start.toNat + text.data.length ≤ memory.size) →
    (writeTexts memory texts)[i]? =
      (texts.reverse.findSome? (TextRecord.byteAt? · i)).or memory[i]?
  | [], memory, _ => rfl
  | text :: texts, memory, h => by
    rw [List.forall_mem_cons] at h
    rw [writeTexts, List.foldl_cons, ← writeTexts,
      getElem?_writeTexts i (by rw [size_write]; exact h.2), getElem?_write h.1,
      List.reverse_cons, List.findSome?_append, Option.or_assoc, List.findSome?_singleton]
    rfl

end Machine

/-! ## Whole inputs -/

namespace ObjectFormat

/-- Lines that are an object program for a memory of the given size: up to some line they are a
header record, text records and an end record, with empty lines anywhere. What stands behind does
not matter. -/
def IsObjectProgram (size : Nat) (lines : List Text) (header : Header) (texts : List TextRecord)
    (entry : UInt32) : Prop :=
  ∃ count, (∀ line ∈ lines.take count, line.length ≤ Text.maxLine) ∧ ∃ first body last,
    recordsOf ((lines.take count).map Text.trimReturns) = first :: (body ++ [last]) ∧
    IsHeader size first header ∧ List.Forall₂ (IsText header) body texts ∧ IsEnd size last entry

/-- Why an input is no object program: the first line with an offence, or that it ends before an end
record. -/
inductive Fails (size : UInt32) (input : Input) : LoadError → Prop
  | offence {k : Nat} {line : Text} {header? : Option Header} {texts : List TextRecord}
      {error : LoadError} (hline : input.text.rawLines[k]? = some line)
      (hfits : ∀ line ∈ input.text.rawLines.take (k + 1), line.length ≤ Text.maxLine)
      (hbody : Body size.toNat
        (recordsOf ((input.text.rawLines.take k).map Text.trimReturns)) header? texts)
      (h : Offence size (k + 1) line.trimReturns header? error) : Fails size input error
  | tooLong {k : Nat} {line : Text} {header? : Option Header} {texts : List TextRecord}
      (hline : input.text.rawLines[k]? = some line) (h : Text.maxLine < line.length)
      (hfits : ∀ line ∈ input.text.rawLines.take k, line.length ≤ Text.maxLine)
      (hbody : Body size.toNat
        (recordsOf ((input.text.rawLines.take k).map Text.trimReturns)) header? texts) :
      Fails size input (.reading .tooLong)
  | device {header? : Option Header} {texts : List TextRecord} {error : ReadError}
      (hfits : ∀ line ∈ input.text.rawLines, line.length ≤ Text.maxLine)
      (hbody : Body size.toNat (recordsOf (input.text.rawLines.map Text.trimReturns)) header? texts)
      (h : input.failure = some error) : Fails size input (.reading error)
  | missingEnd {header? : Option Header} {texts : List TextRecord}
      (hfits : ∀ line ∈ input.text.rawLines, line.length ≤ Text.maxLine)
      (hbody : Body size.toNat (recordsOf (input.text.rawLines.map Text.trimReturns)) header? texts)
      (h : input.failure = none) :
      Fails size input (.record input.text.rawLines.length .missingEnd)

theorem isObjectProgram_of_end {size k : Nat} {lines : List Text} {line : Text} {header : Header}
    {texts : List TextRecord} {entry : UInt32} (hline : lines[k]? = some line)
    (hshort : ∀ line ∈ lines.take (k + 1), line.length ≤ Text.maxLine)
    (hbody : Body size (recordsOf ((lines.take k).map Text.trimReturns)) (some header) texts)
    (hend : IsEnd size line.trimReturns entry) : IsObjectProgram size lines header texts entry := by
  obtain ⟨first, rest, hrecords, hfirst, hrest⟩ := hbody
  refine ⟨k + 1, hshort, first, rest, _, ?_, hfirst, hrest, hend⟩
  have hne : line.trimReturns ≠ [] := by
    intro hnil
    have hletter := hend.letter
    rw [hnil] at hletter
    cases hletter
  rw [List.take_add_one, hline, Option.toList_some, List.map_append, List.map_singleton,
    recordsOf_concat, if_neg hne, hrecords]
  rfl

/-- **An input is an object program, or fails.** -/
theorem program_or_fails (size : UInt32) (input : Input) :
    (∃ header texts entry,
        IsObjectProgram size.toNat input.text.rawLines header texts entry) ∨
      ∃ error, Fails size input error := by
  -- the lines that are delivered, and those behind them
  obtain ⟨fit, behind, hraw, hfits, hbehind⟩ := Text.exists_cut input.text.rawLines
  have htake : ∀ k ≤ fit.length, input.text.rawLines.take k = fit.take k := fun k hk => by
    rw [hraw, List.take_append_of_le_length hk]
  rcases lines_cases size (fit.map Text.trimReturns) with
    ⟨header?, texts, hbody⟩ | ⟨k, record, header?, texts, hk, hbody, hstop⟩
  · cases behind with
    | nil =>
      rw [List.append_nil] at hraw
      subst hraw
      cases hfailure : input.failure with
      | none => exact .inr ⟨_, .missingEnd hfits hbody hfailure⟩
      | some error => exact .inr ⟨_, .device hfits hbody hfailure⟩
    | cons line rest =>
      have hline : input.text.rawLines[fit.length]? = some line := by
        rw [hraw, List.getElem?_append_right (Nat.le_refl _), Nat.sub_self]
        rfl
      have hfront : input.text.rawLines.take fit.length = fit := by
        rw [htake _ (Nat.le_refl _), List.take_length]
      rw [← hfront] at hfits hbody
      exact .inr ⟨_, .tooLong hline (hbehind line rfl) hfits hbody⟩
  · rw [List.getElem?_map, Option.map_eq_some_iff] at hk
    obtain ⟨line, hline, rfl⟩ := hk
    have hlt := (List.getElem?_eq_some_iff.1 hline).1
    have hshort : ∀ line ∈ input.text.rawLines.take (k + 1), line.length ≤ Text.maxLine := by
      rw [htake _ hlt]
      exact fun line hmem => hfits line (List.mem_of_mem_take hmem)
    rw [← List.map_take, ← htake k (Nat.le_of_lt hlt)] at hbody
    have hget : input.text.rawLines[k]? = some line := by
      rwa [hraw, List.getElem?_append_left hlt]
    rcases hstop with ⟨header, rfl, entry, hend⟩ | ⟨error, herror⟩
    · exact .inl ⟨header, texts, entry, isObjectProgram_of_end hget hshort hbody hend⟩
    · exact .inr ⟨error, .offence hget hshort hbody herror⟩

end ObjectFormat

namespace Machine

open ObjectFormat

/-- The machine that an object program describes. -/
structure IsLoaded (machine : Machine) (header : Header) (texts : List TextRecord)
    (entry : UInt32) (result : Machine) : Prop where
  counter : result.counter = entry
  header : result.header = header
  size : result.memory.size = machine.memory.size
  /-- The last text record that has an address decides its byte. -/
  memory : ∀ i : Nat, result.memory[i]? =
    (texts.reverse.findSome? (TextRecord.byteAt? · i)).or machine.memory[i]?

theorem toNat_size_le (machine : Machine) : machine.size.toNat ≤ machine.memory.size := by
  rw [size, UInt32.toNat_ofNat']
  exact Nat.mod_le _ _

theorem isLoaded_iff {machine result : Machine} {header : Header} {texts : List TextRecord}
    {entry : UInt32}
    (h : ∀ text ∈ texts, text.start.toNat + text.data.length ≤ machine.memory.size) :
    machine.IsLoaded header texts entry result ↔
      result = { machine.loaded (some header) texts with counter := entry } := by
  constructor
  · rintro ⟨rfl, rfl, -, hmemory⟩
    have hmemory : result.memory = writeTexts machine.memory texts := by
      refine Array.ext_getElem? fun i => ?_
      rw [hmemory, getElem?_writeTexts i h]
    rw [loaded, ← hmemory]
    rfl
  · rintro rfl
    exact ⟨rfl, rfl, size_writeTexts _ _, fun i => getElem?_writeTexts i h⟩

section
variable {machine : Machine} {input : Input}

theorem load_of_isObjectProgram {header : Header} {texts : List TextRecord} {entry : UInt32}
    (h : IsObjectProgram machine.size.toNat input.text.rawLines header texts entry) :
    machine.load input = ({ machine.loaded (some header) texts with counter := entry }, none) := by
  obtain ⟨count, hshort, first, body, last, hrecords, hfirst, hbody, hlast⟩ := h
  obtain ⟨rest, hlines⟩ := Input.lines_of_short hshort
  -- the end record, and the empty lines before and behind it
  rw [recordsOf, ← List.cons_append, List.filter_eq_append_iff] at hrecords
  obtain ⟨front, tail, hsplit, hfront, htail⟩ := hrecords
  obtain ⟨blank, behind, rfl, hblank, -, -⟩ := List.filter_eq_cons_iff.1 htail
  have hrecords : recordsOf (front ++ blank) = first :: body := by
    rw [recordsOf, List.filter_append, hfront, List.filter_eq_nil_iff.2 hblank, List.append_nil]
  rw [hsplit, ← List.append_assoc, List.append_assoc, List.cons_append] at hlines
  change loadLines machine false 1 input.lines.failure input.lines.lines = _
  rw [hlines]
  exact loadLines_end machine _ _ ⟨first, body, hrecords, hfirst, hbody⟩ hlast

theorem load_of_fails {error : LoadError} (h : Fails machine.size input error) :
    (machine.load input).2 = some error := by
  change (loadLines machine false 1 input.lines.failure input.lines.lines).2 = _
  cases h with
  | @offence k line header? texts _ hline hshort hbody h =>
    obtain ⟨rest, hlines⟩ := Input.lines_of_short hshort
    have hk : (input.text.rawLines.take k).length = k :=
      List.length_take_of_le (Nat.le_of_lt (List.getElem?_eq_some_iff.1 hline).1)
    rw [List.take_add_one, hline, List.map_append, List.append_assoc] at hlines
    rw [hlines]
    refine congrArg Prod.snd (loadLines_offence machine _ rest hbody ?_)
    rwa [List.length_map, hk]
  | @tooLong k line header? texts hline h hshort hbody =>
    obtain ⟨hk, hget⟩ := List.getElem?_eq_some_iff.1 hline
    have hdrop : input.text.rawLines.drop k = line :: input.text.rawLines.drop (k + 1) := by
      rw [List.drop_eq_getElem_cons hk, hget]
    have hlong : ∀ line ∈ (input.text.rawLines.drop k).head?, Text.maxLine < line.length := by
      rw [hdrop]
      rintro _ ⟨⟩
      exact h
    rw [Input.lines_eq (List.take_append_drop k _).symm hshort hlong,
      if_neg (by rw [hdrop]; exact List.cons_ne_nil _ _), loadLines_missing machine _ hbody]
    rfl
  | device hshort hbody h =>
    rw [Input.lines_eq (List.append_nil _).symm hshort nofun, if_pos rfl, h,
      loadLines_missing machine _ hbody]
    rfl
  | missingEnd hshort hbody h =>
    rw [Input.lines_eq (List.append_nil _).symm hshort nofun, if_pos rfl, h,
      loadLines_missing machine _ hbody, List.length_map]
    rfl

theorem inside_of_isObjectProgram {header : Header} {texts : List TextRecord} {entry : UInt32}
    (h : IsObjectProgram machine.size.toNat input.text.rawLines header texts entry) :
    ∀ text ∈ texts, text.start.toNat + text.data.length ≤ machine.memory.size := by
  obtain ⟨-, -, first, body, last, -, hfirst, hbody, -⟩ := h
  have hstart : Body machine.size.toNat (first :: body) (some header) texts :=
    ⟨first, body, rfl, hfirst, hbody⟩
  intro text htext
  obtain ⟨_, ⟨⟩, -, hhigh⟩ := hstart.inside text htext
  exact Nat.le_trans hhigh (Nat.le_trans hfirst.fits machine.toNat_size_le)

/-- **What is loaded**: an input is accepted if and only if it is an object program, and leaves the
machine that the object program describes. Otherwise the first offence is reported, with the number
of its line. -/
theorem load_exact (machine : Machine) (input : Input) :
    (∀ result, machine.load input = (result, none) ↔ ∃ header texts entry,
        IsObjectProgram machine.size.toNat input.text.rawLines header texts entry ∧
          machine.IsLoaded header texts entry result) ∧
      (∀ error, (machine.load input).2 = some error ↔ Fails machine.size input error) ∧
      (machine.memory.size < 2 ^ 32 → machine.size.toNat = machine.memory.size) := by
  refine ⟨fun result => ⟨fun h => ?_, ?_⟩, fun error => ⟨fun h => ?_, load_of_fails⟩, ?_⟩
  · rcases program_or_fails machine.size input with ⟨header, texts, entry, hp⟩ | ⟨error, hf⟩
    · refine ⟨header, texts, entry, hp, (isLoaded_iff (inside_of_isObjectProgram hp)).2 ?_⟩
      rw [load_of_isObjectProgram hp] at h
      exact (Prod.ext_iff.1 h).1.symm
    · have hnone := load_of_fails hf
      rw [h] at hnone
      cases hnone
  · rintro ⟨header, texts, entry, hp, hl⟩
    rw [load_of_isObjectProgram hp, (isLoaded_iff (inside_of_isObjectProgram hp)).1 hl]
  · rcases program_or_fails machine.size input with ⟨header, texts, entry, hp⟩ | ⟨other, hf⟩
    · rw [load_of_isObjectProgram hp] at h
      cases h
    · cases (load_of_fails hf).symm.trans h
      exact hf
  · intro hsize
    rw [size, UInt32.toNat_ofNat', Nat.mod_eq_of_lt hsize]

-- the later of two text records wins, an empty line is skipped, and the last line does not matter
example : load { memory := Array.replicate 8 0 }
    { text := "HP     000002000004\nT00000202AABB\n\nT00000301CC\r\nE000002\nT" } =
      (⟨#[0, 0, 0xAA, 0xCC, 0, 0, 0, 0], 2, ⟨"P", 2, 4⟩⟩, none) := by
  decide +kernel

end

end Machine

end SicXe
