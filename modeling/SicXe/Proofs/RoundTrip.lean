import SicXe.Proofs.AssemblyRun
import SicXe.Proofs.Loading

/-!
# From source to memory

* `mem_objectCells`, `objectCells_agree`: the object bytes of a program without a fault, each at an
  address of its own inside the program.
* `textRecords_inside`, `objectProgram_eq`: the lines of its object program.
* `load_objectProgram`: the object program of a program without a fault is loaded, unless its entry
  point is outside of memory or its name has a glyph of several bytes; then memory holds the object
  bytes at their addresses and nothing else.
-/

namespace SicXe

/-- What the header of a program's object program announces. -/
def Program.header (program : Program) : Header :=
  { name := program.name, start := program.start, length := program.length }

/-- The object bytes of a program with their addresses. -/
def Program.objectCells (program : Program) : List (UInt32 × UInt8) :=
  program.records.flatMap fun record => cells record.address record.object

namespace Assembly

section
variable {mode : Mode} {lines : List Text}
  (hfree : (ofLines mode lines).program.errorFree = true)
  (hlen : ∀ line ∈ lines, line.length < 2 ^ 31)
include hfree hlen

/-! ## Object bytes in memory -/

/-- The program lies in memory. -/
theorem program_fits :
    (ofLines mode lines).program.start.toNat + (ofLines mode lines).program.length.toNat ≤
      mode.memorySize.toNat := by
  obtain ⟨-, hstart, hlength⟩ := program_ofLines hfree
  rw [errorFree_ofLines] at hfree
  obtain ⟨hexact, hle⟩ := Layout.total_exact hfree hlen
  rw [hstart, hlength, Layout.length_exact hfree hlen, ← hexact]
  exact hle

section
variable {k : Nat} {record : Record}
  (hk : (ofLines mode lines).program.records[k]? = some record)
include hk

theorem object_inside (hne : record.object ≠ []) :
    (ofLines mode lines).program.start.toNat ≤ record.address.toNat ∧
      record.address.toNat + record.object.length ≤
        (ofLines mode lines).program.start.toNat + (ofLines mode lines).program.length.toNat := by
  obtain ⟨hlaid, -⟩ := record_outcome hfree hk
  obtain ⟨-, hstart, hlength⟩ := program_ofLines hfree
  rcases length_object hfree hlen hk with hnil | hwidth
  · exact absurd hnil hne
  · have hpos : 0 < record.bare.width.toNat := hwidth ▸ List.length_pos_iff.2 hne
    rw [errorFree_ofLines] at hfree
    have hinside := Layout.record_inside hfree hlen hlaid hpos
    rw [hstart, hlength, hwidth]
    exact hinside

theorem object_disjoint {j : Nat} {before : Record}
    (hj : (ofLines mode lines).program.records[j]? = some before) (hjk : j < k) :
    before.address.toNat + before.object.length ≤ record.address.toNat := by
  obtain ⟨hlaid, -⟩ := record_outcome hfree hk
  obtain ⟨hbefore, -⟩ := record_outcome hfree hj
  have hle : before.object.length ≤ before.width.toNat := by
    rcases length_object hfree hlen hj with hnil | hwidth
    · simp [hnil]
    · exact Nat.le_of_eq hwidth
  rw [errorFree_ofLines] at hfree
  have hdisjoint := Layout.record_disjoint hfree hlen hlaid hbefore hjk
  exact Nat.le_trans (Nat.add_le_add_left hle _) hdisjoint

end

/-- **Where object bytes are**: at the address of their record and behind. -/
theorem mem_objectCells {c : UInt32 × UInt8} :
    c ∈ (ofLines mode lines).program.objectCells ↔
      ∃ (k : Nat) (record : Record) (j : Nat),
        (ofLines mode lines).program.records[k]? = some record ∧
        record.object[j]? = some c.2 ∧ c.1.toNat = record.address.toNat + j := by
  have hsize := mode.memorySize_le
  have hfits := program_fits hfree hlen
  -- addresses of object bytes do not wrap, since they are in memory
  have hexact {k : Nat} {record : Record} {j : Nat}
      (hk : (ofLines mode lines).program.records[k]? = some record)
      (hj : record.object[j]? = some c.2) :
      c.1 = record.address + UInt32.ofNat j ↔ c.1.toNat = record.address.toNat + j := by
    obtain ⟨hlt, -⟩ := List.getElem?_eq_some_iff.1 hj
    have hinside := (object_inside hfree hlen hk (List.ne_nil_of_length_pos (by omega))).2
    rw [← UInt32.toNat_inj, UInt32.toNat_add, UInt32.toNat_ofNat',
      Nat.mod_eq_of_lt (a := j) (by omega), Nat.mod_eq_of_lt (by omega)]
  rw [Program.objectCells, List.mem_flatMap]
  constructor
  · rintro ⟨record, hmem, hc⟩
    obtain ⟨k, hk⟩ := List.mem_iff_getElem?.1 hmem
    obtain ⟨j, haddress, hj⟩ := mem_cells_iff.1 hc
    exact ⟨k, record, j, hk, hj, (hexact hk hj).1 haddress⟩
  · rintro ⟨k, record, j, hk, hj, haddress⟩
    exact ⟨record, List.mem_of_getElem? hk, mem_cells_iff.2 ⟨j, (hexact hk hj).2 haddress, hj⟩⟩

/-- **No address has two object bytes.** -/
theorem objectCells_agree {c d : UInt32 × UInt8}
    (hc : c ∈ (ofLines mode lines).program.objectCells)
    (hd : d ∈ (ofLines mode lines).program.objectCells) (h : c.1 = d.1) : c.2 = d.2 := by
  obtain ⟨k, record, j, hk, hj, haddress⟩ := (mem_objectCells hfree hlen).1 hc
  obtain ⟨k', record', j', hk', hj', haddress'⟩ := (mem_objectCells hfree hlen).1 hd
  obtain ⟨hlt, -⟩ := List.getElem?_eq_some_iff.1 hj
  obtain ⟨hlt', -⟩ := List.getElem?_eq_some_iff.1 hj'
  rw [h] at haddress
  rcases Nat.lt_trichotomy k k' with hbefore | rfl | hbehind
  · have := object_disjoint hfree hlen hk' hk hbefore
    omega
  · cases hk.symm.trans hk'
    have hsame : j = j' := by omega
    rw [hsame] at hj
    exact Option.some.inj (hj.symm.trans hj')
  · have := object_disjoint hfree hlen hk hk' hbehind
    omega

/-- Object bytes are inside the program. -/
theorem objectCells_inside {c : UInt32 × UInt8}
    (hc : c ∈ (ofLines mode lines).program.objectCells) :
    (ofLines mode lines).program.start.toNat ≤ c.1.toNat ∧
      c.1.toNat <
        (ofLines mode lines).program.start.toNat + (ofLines mode lines).program.length.toNat := by
  obtain ⟨k, record, j, hk, hj, haddress⟩ := (mem_objectCells hfree hlen).1 hc
  obtain ⟨hlt, -⟩ := List.getElem?_eq_some_iff.1 hj
  have := object_inside hfree hlen hk (List.ne_nil_of_length_pos (by omega))
  omega

/-! ## The object program -/

omit hfree hlen in
theorem cells_report (assembly : Assembly) :
    (textRecords assembly.report.lines).flatMap TextRecord.cells =
      assembly.program.objectCells := by
  rw [cells_textRecords, report, List.flatMap_map]
  rfl

/-- Text records lie inside the program. -/
theorem textRecords_inside {record : TextRecord}
    (hrecord : record ∈ textRecords (ofLines mode lines).report.lines) :
    record.Inside (ofLines mode lines).program.header := by
  obtain ⟨hne, hsize⟩ := length_of_mem_textRecords hrecord
  have hfits := program_fits hfree hlen
  have hmemory := mode.memorySize_le
  have hpos := List.length_pos_iff.2 hne
  have hstart := record.start.toNat_lt
  have hcell {j : Nat} (hj : j < record.data.length) :=
    objectCells_inside hfree hlen (c := (record.start + UInt32.ofNat j, record.data[j])) <| by
      rw [← cells_report, List.mem_flatMap]
      exact ⟨record, hrecord, mem_cells_iff.2 ⟨j, rfl, List.getElem?_eq_getElem hj⟩⟩
  -- the first and the last byte bound the record
  obtain ⟨hlow, hfirst⟩ := hcell hpos
  obtain ⟨-, hlast⟩ := hcell (j := record.data.length - 1) (by omega)
  rw [TextRecord.capacity] at hsize
  simp only [UInt32.toNat_add, UInt32.toNat_ofNat'] at hlow hfirst hlast
  refine ⟨hne, hsize, ?_, ?_, ?_⟩ <;> dsimp only [Program.header] <;> omega

omit hfree hlen in
theorem objectProgram_eq {assembly : Assembly} (hfree : assembly.program.errorFree = true)
    (hfaults : assembly.faults = []) :
    assembly.report.objectProgram = .ok ((Machine.programLines assembly.program.header
      (textRecords assembly.report.lines) assembly.program.entry).flatMap
        (· ++ [Text.lineFeed])) := by
  have hmessages : assembly.report.messages = [] := by rw [report, hfaults]; rfl
  have hrender : TextRecord.render = fun record => record.text ++ [Text.lineFeed] :=
    funext TextRecord.render_eq
  rw [Report.objectProgram, if_pos ⟨hfree, hmessages⟩, hrender]
  simp [Machine.programLines, Machine.headerText, Machine.finishText, ObjectProgram.header,
    ObjectProgram.finish, List.flatMap_map, Program.header, report]

end

end Assembly

/-- A machine into which a program was loaded: it announces the program, is about to run it, and its
memory holds the object bytes at their addresses and is zero elsewhere. -/
structure Machine.Holds (machine : Machine) (program : Program) : Prop where
  header : machine.header = ⟨program.name, program.start, program.length⟩
  counter : machine.counter = program.entry
  object : ∀ record ∈ program.records, ∀ (j : Nat) (b : UInt8), record.object[j]? = some b →
    machine.memory[record.address.toNat + j]? = some b
  zero : ∀ i < machine.memory.size,
    (∀ record ∈ program.records, ∀ j < record.object.length, record.address.toNat + j ≠ i) →
    machine.memory[i]? = some 0

namespace Assembly

/-- The object bytes stored in an empty memory. -/
theorem holds_store {mode : Mode} {lines : List Text}
    (hfree : (ofLines mode lines).program.errorFree = true)
    (hlen : ∀ line ∈ lines, line.length < 2 ^ 31) :
    Machine.Holds
      { header := (ofLines mode lines).program.header
        memory := Machine.store (Array.replicate mode.memorySize.toNat 0)
          (ofLines mode lines).program.objectCells
        counter := (ofLines mode lines).program.entry }
      (ofLines mode lines).program := by
  refine ⟨rfl, rfl, fun record hrecord j b hj => ?_, fun i hi hother => ?_⟩
  case refine_1 =>
    obtain ⟨k, hk⟩ := List.mem_iff_getElem?.1 hrecord
    obtain ⟨hlt, -⟩ := List.getElem?_eq_some_iff.1 hj
    have hinside := object_inside hfree hlen hk (List.ne_nil_of_length_pos (by omega))
    have hfits := program_fits hfree hlen
    have hsize := mode.memorySize_le
    have haddress : (UInt32.ofNat (record.address.toNat + j)).toNat = record.address.toNat + j := by
      rw [UInt32.toNat_ofNat', Nat.mod_eq_of_lt (by omega)]
    have hcell : (UInt32.ofNat (record.address.toNat + j), b) ∈
        (ofLines mode lines).program.objectCells :=
      (mem_objectCells hfree hlen).2 ⟨k, record, j, hk, hj, haddress⟩
    rw [← haddress]
    refine Machine.getElem?_store_of_mem ?_ hcell fun c hc heq => ?_
    · rw [haddress, Array.size_replicate]
      omega
    · exact objectCells_agree hfree hlen hc hcell heq
  case refine_2 =>
    rw [Machine.size_store, Array.size_replicate] at hi
    rw [Machine.getElem?_store, Array.getElem?_replicate, if_pos hi]
    intro c hc heq
    obtain ⟨k, record, j, hk, hj, haddress⟩ := (mem_objectCells hfree hlen).1 hc
    obtain ⟨hlt, -⟩ := List.getElem?_eq_some_iff.1 hj
    exact hother record (List.mem_of_getElem? hk) j hlt (haddress ▸ heq)

/-- The name of a program is part of a line and has no blank. -/
theorem name_program {mode : Mode} {lines : List Text}
    (hfree : (ofLines mode lines).program.errorFree = true) :
    (ofLines mode lines).program.name.length ≤ Statement.maxLabel ∧
      (ofLines mode lines).program.name.OneLine ∧
      ∀ b ∈ (ofLines mode lines).program.name, b ≠ Text.blank := by
  rw [(program_ofLines hfree).1]
  obtain ⟨hlength, hspace⟩ := Layout.name_spec mode lines .empty
  refine ⟨hlength, fun b hb => ?_, fun b hb => ?_⟩
  · constructor <;> rintro rfl <;> exact absurd (hspace _ hb) (by decide)
  · rintro rfl
    exact absurd (hspace _ hb) (by decide)

/-- **An object program loads to its object code.** A program that was assembled without a fault has
an object program. Into a machine that was reset to the memory of the mode, this is loaded exactly
if the entry point is in memory and every glyph of the name is one byte, and then the machine holds
the program. -/
theorem load_objectProgram {mode : Mode} {input : Input} {assembly : Assembly} (machine : Machine)
    (hassembly : ofInput mode input = .ok assembly) (hfaults : assembly.faults = []) :
    ∃ text, assembly.report.objectProgram = .ok text ∧
      (((machine.reset mode.memorySize).load { text }).2 = none ↔
        assembly.program.entry < mode.memorySize ∧
          ∀ g ∈ assembly.program.name.glyphs, g.bytes.length = 1) ∧
      (((machine.reset mode.memorySize).load { text }).2 = none →
        ((machine.reset mode.memorySize).load { text }).1.memory.size = mode.memorySize.toNat ∧
        ((machine.reset mode.memorySize).load { text }).1.Holds assembly.program) := by
  obtain rfl := ofInput_eq_ok hassembly
  have hfree := errorFree_of_faults hfaults
  have hlen : ∀ line ∈ input.lines.lines, line.length < 2 ^ 31 := fun line hline =>
    Nat.lt_of_le_of_lt (Input.length_le_of_mem_lines hline) (by decide)
  obtain ⟨hname, hline, hblank⟩ := name_program hfree
  have hsize : (machine.reset mode.memorySize).size = mode.memorySize := by
    rw [Machine.size, Machine.reset, Array.size_replicate, UInt32.ofNat_toNat]
  have hload := Machine.loadLines_program (machine.reset mode.memorySize)
    (ofLines mode input.lines.lines).program.entry hname hblank
    (fun record => textRecords_inside hfree hlen) (by rw [hsize]; exact program_fits hfree hlen)
    (by rw [hsize]; exact mode.memorySize_le.2)
  rw [hsize, cells_report] at hload
  refine ⟨_, objectProgram_eq hfree hfaults, ?_⟩
  rw [Machine.load, Machine.lines_programLines _ hline fun record hrecord =>
    (length_of_mem_textRecords hrecord).2]
  dsimp only
  split at hload
  case isTrue hgood =>
    rw [hload]
    refine ⟨⟨fun _ => hgood, fun _ => rfl⟩, fun _ => ⟨?_, holds_store hfree hlen⟩⟩
    rw [Machine.size_store]
    exact Array.size_replicate
  case isFalse hbad =>
    obtain ⟨error, hload⟩ := hload
    rw [hload]
    have hfails : some error ≠ none := Option.some_ne_none error
    exact ⟨⟨fun h => absurd h hfails, fun h => absurd h hbad⟩, fun h => absurd h hfails⟩

/-- Reserved storage stays zero between two pieces of object code. -/
theorem load_objectProgram_gap :
    ∃ assembly text,
      ofInput .xe { text := "COPY START 1000\nFIRST LDA #3\nGAP RESB 9\nWORD 7\nEND FIRST\n" } =
        .ok assembly ∧
      assembly.report.objectProgram = .ok text ∧
      (Machine.load (Machine.reset {} Mode.xe.memorySize) { text }).2 = none ∧
      (Machine.load (Machine.reset {} Mode.xe.memorySize) { text }).1.counter = 0x1000 ∧
      (Machine.load (Machine.reset {} Mode.xe.memorySize) { text }).1.memory[0x1003]? = some 0 ∧
      (Machine.load (Machine.reset {} Mode.xe.memorySize) { text }).1.memory[0x100E]? =
        some 7 := by
  have hassembly :
      ofInput .xe { text := "COPY START 1000\nFIRST LDA #3\nGAP RESB 9\nWORD 7\nEND FIRST\n" } =
        .ok (ofLines .xe
          ["COPY START 1000", "FIRST LDA #3", "GAP RESB 9", "WORD 7", "END FIRST"]) := rfl
  have hword : (ofLines .xe ["COPY START 1000", "FIRST LDA #3", "GAP RESB 9", "WORD 7",
      "END FIRST"]).program.records[3]? =
      some { line := 4, source := "WORD 7", content := .directive .word,
             statement := { mnemonic := "WORD", operand := "7" },
             address := 0x100C, width := 3, object := [0, 0, 7] } := by decide +kernel
  obtain ⟨text, htext, hiff, hholds⟩ := load_objectProgram {} hassembly (by decide +kernel)
  have hload := hiff.2 ⟨by decide +kernel, by decide +kernel⟩
  obtain ⟨hsize, h⟩ := hholds hload
  refine ⟨_, text, hassembly, htext, hload, ?_, ?_, ?_⟩
  · rw [h.counter]
    decide +kernel
  · refine h.zero 0x1003 (by rw [hsize]; decide) ?_
    decide +kernel
  · exact h.object _ (List.mem_of_getElem? hword) 2 7 rfl

end Assembly

end SicXe
