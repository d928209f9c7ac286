import SicXe.Program.ObjectCode
import SicXe.Proofs.Operands

/-!
# The second run, record by record

* `objectOf`: the object bytes of a record under given labels and a base register, or why it gets
  none; `Record.settle`: the record with that outcome.
* `Step`, `pushRecord_step`: all that one record does to the run.
* `record_step`: the same for each record of a whole run.
* `bare_records`: the run changes nothing of a record but its object bytes and faults.
* `base_foldl`: the base register holds what the last base directive announced whose operand gives
  an address.
-/

namespace SicXe

/-- The format and the opcode with which a record is encoded, if it is to be encoded at all. -/
def Content.encoding? : Content → Option (Format × UInt8)
  | .directive .byte => some (.byte, 0)
  | .directive .word => some (.word, 0)
  | .instruction opcode => some (opcode.format, opcode.code)
  | _ => none

/-- The record without object bytes and faults. -/
def Record.bare (record : Record) : Record := { record with object := [], faults := [] }

/-- The record with the outcome of its encoding. -/
def Record.settle (record : Record) : Except EncodeError Text → Record
  | .ok object => { record with object }
  | .error (.fault cause) =>
    { record with faults := record.faults ++ [record.faultAt record.statement.operand cause] }
  | .error (.defect _) => record

namespace ObjectCode

/-! ## Addresses -/

/-- The address that an operand stands for: that of a label, or else a decimal number that is not
negative. -/
def addressOf? (symbols : SymbolTable) (operand : Text) : Option Nat :=
  (Operand.valueOf? symbols operand).bind Int.toNat?

theorem toNat_lowWord_of_nonneg {value : Int64} (hlow : 0 ≤ value.toInt)
    (hhigh : value.toInt < 2 ^ 32) :
    ((Instruction.lowWord value).toNat : Int) = value.toInt := by
  rw [Instruction.lowWord, Word.toNat_lowWord]
  exact Int.emod_eq_of_lt hlow hhigh

theorem toOption_address (symbols : SymbolTable) (operand : Text) :
    (address symbols operand).toOption.map UInt32.toNat = addressOf? symbols operand := by
  unfold address addressOf? Operand.valueOf?
  cases symbols.get? operand with
  | some address => rfl
  | none =>
    cases hd : Numeral.decodeCount operand with
    | error e =>
      rw [Numeral.decodeCount_eq_error hd]
      cases operand.isSymbolName <;> rfl
    | ok value =>
      have hv := Numeral.decodeCount_eq_ok hd
      obtain ⟨-, hhigh⟩ := Numeral.decimal?_bounds hv
      rw [hv, Option.bind_some, Except.toOption, Option.filter_some]
      by_cases hlow : 0 ≤ value.toInt
      · have hle : (0 : Int64) ≤ value := by
          rwa [Int64.le_iff_toInt_le, Int64.toInt_zero]
        have hword := toNat_lowWord_of_nonneg hlow (by omega)
        rw [if_pos (by simpa using hle), ← hword]
        simp [Except.toOption, Int.toNat?]
      · have hle : ¬ (0 : Int64) ≤ value := by
          rwa [Int64.le_iff_toInt_le, Int64.toInt_zero]
        obtain ⟨n, hn⟩ := Int.eq_negSucc_of_lt_zero (Int.not_le.1 hlow)
        rw [if_neg (by simpa using hle), hn]
        cases operand.isSymbolName <;> rfl

/-- What a record announces for the base register. -/
def announced? (symbols : SymbolTable) (record : Record) : Option Nat :=
  if record.content = .directive .base then addressOf? symbols record.statement.operand else none

/-- The base register after records: what the last of them announced, or zero. -/
def baseAfter (symbols : SymbolTable) (records : List Record) : Nat :=
  (records.filterMap (announced? symbols)).getLast?.getD 0

theorem baseAfter_concat (symbols : SymbolTable) (records : List Record) (record : Record) :
    baseAfter symbols (records ++ [record]) =
      (announced? symbols record).getD (baseAfter symbols records) := by
  unfold baseAfter
  cases h : announced? symbols record <;> simp [List.filterMap_append, h]

theorem baseAfter_map_bare (symbols : SymbolTable) (records : List Record) :
    baseAfter symbols (records.map Record.bare) = baseAfter symbols records := by
  rw [baseAfter, List.filterMap_map]
  rfl

/-! ## One record -/

/-- The object bytes of a record, or why it gets none. -/
def objectOf (symbols : SymbolTable) (base : UInt32) (record : Record) (format : Format)
    (opcode : UInt8) : Except EncodeError Text :=
  let resolution := Operand.resolve record.statement.operand format symbols
  match resolution.failure with
  | some cause => .error (.fault cause)
  | none => (instruction record resolution.operand format opcode base).encode

/-- Where the program begins to run after a record. -/
def entryAfter (code : ObjectCode) (record : Record) : UInt32 :=
  if record.content = .directive .finish ∧ record.statement.operand ≠ [] then
    if record.statement.operand = code.name then code.start
    else (address code.symbols record.statement.operand).toOption.getD code.entry
  else code.entry

/-- A run and the next one, after a record that became `result`. -/
structure Step (code : ObjectCode) (record result : Record) (next : ObjectCode) : Prop where
  symbols : next.symbols = code.symbols
  name : next.name = code.name
  start : next.start = code.start
  records : next.records = code.records.push result
  bare : result.bare = record.bare
  faults : ∃ found : List Fault, result.faults = record.faults ++ found ∧
    next.faults = code.faults ++ found.toArray
  encoded : ∀ format opcode, record.content.encoding? = some (format, opcode) →
    result = record.settle (objectOf code.symbols code.base record format opcode)
  plain : record.content.encoding? = none → result.object = record.object
  base : next.base.toNat = (announced? code.symbols record).getD code.base.toNat
  entry : next.entry = code.entryAfter record

section
variable (code : ObjectCode) {record : Record}

theorem announced?_of_ne (symbols : SymbolTable) (h : record.content ≠ .directive .base) :
    announced? symbols record = none := if_neg h

theorem encoding?_directive (h : record.content = .directive .base ∨
    record.content = .directive .finish) : record.content.encoding? = none := by
  rcases h with h | h <;> rw [h] <;> rfl

theorem ne_directive_of_encoding? {format : Format} {opcode : UInt8} {directive : Directive}
    (h : record.content.encoding? = some (format, opcode))
    (hd : directive = .base ∨ directive = .finish) : record.content ≠ .directive directive := by
  intro hc
  rw [encoding?_directive (by rw [hc]; rcases hd with rfl | rfl <;> simp)] at h
  cases h

/-- What encoding a record does to the run: the record is settled, and its faults are reported. -/
theorem encode_eq (record : Record) (format : Format) (opcode : UInt8) :
    ∃ found faults notes defects, code.encode record format opcode =
        { code.keep (record.settle (objectOf code.symbols code.base record format opcode)) with
          faults, notes, defects } ∧
      faults = code.faults ++ List.toArray found ∧
      (record.settle (objectOf code.symbols code.base record format opcode)).faults =
        record.faults ++ found := by
  unfold encode objectOf
  dsimp only
  cases (Operand.resolve record.statement.operand format code.symbols).failure with
  | some cause =>
    exact ⟨[record.faultAt record.statement.operand cause], _, _, _, rfl, by simp, rfl⟩
  | none =>
    dsimp only
    generalize instruction record _ format opcode code.base = inst
    match inst.encode with
    | .ok object => exact ⟨[], _, _, _, rfl, by simp [keep], by simp [Record.settle]⟩
    | .error (.defect defect) => exact ⟨[], _, _, _, rfl, by simp [keep], by simp [Record.settle]⟩
    | .error (.fault cause) =>
      exact ⟨[record.faultAt record.statement.operand cause], _, _, _, rfl, by simp, rfl⟩

theorem bare_settle (outcome : Except EncodeError Text) :
    (record.settle outcome).bare = record.bare := by
  match outcome with
  | .ok _ | .error (.defect _) | .error (.fault _) => rfl

private theorem step_encode {format : Format} {opcode : UInt8}
    (he : record.content.encoding? = some (format, opcode)) :
    Step code record (record.settle (objectOf code.symbols code.base record format opcode))
      (code.encode record format opcode) := by
  obtain ⟨found, faults, notes, defects, hencode, hfaults, hfound⟩ :=
    code.encode_eq record format opcode
  rw [hencode]
  exact {
    symbols := rfl
    name := rfl
    start := rfl
    records := rfl
    bare := bare_settle _
    faults := ⟨found, hfound, hfaults⟩
    encoded := fun format' opcode' h => by
      cases he.symm.trans h
      rfl
    plain := fun h => by cases he.symm.trans h
    base := by rw [announced?_of_ne _ (ne_directive_of_encoding? he (.inl rfl))]; rfl
    entry := by
      have hf := ne_directive_of_encoding? he (.inr rfl)
      rw [entryAfter, if_neg (by simp [hf])]
      rfl }

/-- A record that is not encoded: it stays as it is or gets a fault. -/
private theorem step_plain {found kept : List Fault} {faults : Array Fault} {next : ObjectCode}
    {base entry : UInt32} {notes : Array Note} (he : record.content.encoding? = none)
    (hn : next = { code.keep { record with faults := kept } with faults, notes, base, entry })
    (hkept : kept = record.faults ++ found) (hfaults : faults = code.faults ++ found.toArray)
    (hbase : base.toNat = (announced? code.symbols record).getD code.base.toNat)
    (hentry : entry = code.entryAfter record) :
    ∃ result, Step code record result next := by
  subst hn
  exact ⟨_, {
    symbols := rfl
    name := rfl
    start := rfl
    records := rfl
    bare := rfl
    faults := ⟨found, hkept, hfaults⟩
    encoded := fun format opcode h => by simp [he] at h
    plain := fun _ => rfl
    base := hbase
    entry := hentry }⟩

private theorem step_keep (he : record.content.encoding? = none)
    (hb : record.content ≠ .directive .base) (hf : code.entryAfter record = code.entry) :
    ∃ result, Step code record result (code.keep record) :=
  step_plain code he rfl (List.append_nil _).symm (by simp)
    (by rw [announced?_of_ne _ hb]; rfl) hf.symm

private theorem step_setBase (h : record.content = .directive .base) :
    ∃ result, Step code record result (code.setBase record) := by
  have he := encoding?_directive (.inl h)
  have hentry : code.entry = code.entryAfter record := by rw [entryAfter, if_neg (by simp [h])]
  have hbase := toOption_address code.symbols record.statement.operand
  rw [setBase]
  cases ha : address code.symbols record.statement.operand with
  | error cause =>
    rw [ha] at hbase
    refine step_plain code he rfl rfl (by simp) ?_ hentry
    rw [announced?, if_pos h, ← hbase]
    rfl
  | ok base =>
    rw [ha] at hbase
    refine step_plain code he rfl (List.append_nil _).symm (by simp [keep]) ?_ hentry
    rw [announced?, if_pos h, ← hbase]
    rfl

private theorem step_setEntry (h : record.content = .directive .finish) :
    ∃ result, Step code record result (code.setEntry record) := by
  have he := encoding?_directive (.inr h)
  have hbase : code.base.toNat = (announced? code.symbols record).getD code.base.toNat := by
    rw [announced?_of_ne _ (by simp [h])]
    rfl
  rw [setEntry]
  dsimp only
  split
  case isTrue ho =>
    exact step_keep code he (by simp [h]) (by rw [entryAfter, if_neg (by simp [ho])])
  case isFalse ho =>
    split
    case isTrue hname =>
      exact step_plain code he rfl (List.append_nil _).symm (by simp [keep]) hbase
        (by rw [entryAfter, if_pos ⟨h, ho⟩, if_pos hname])
    case isFalse hname =>
      cases ha : address code.symbols record.statement.operand with
      | error cause =>
        exact step_plain code he rfl rfl (by simp) hbase
          (by rw [entryAfter, if_pos ⟨h, ho⟩, if_neg hname, ha]; rfl)
      | ok entry =>
        exact step_plain code he rfl (List.append_nil _).symm (by simp [keep]) hbase
          (by rw [entryAfter, if_pos ⟨h, ho⟩, if_neg hname, ha]; rfl)

/-- What is done with a record: it is encoded, sets the base register or the entry point, or stays
as it is. -/
theorem pushRecord_cases (record : Record) :
    (∃ format opcode, record.content.encoding? = some (format, opcode) ∧
        code.pushRecord record = code.encode record format opcode) ∨
      (record.content = .directive .base ∧ code.pushRecord record = code.setBase record) ∨
      (record.content = .directive .finish ∧ code.pushRecord record = code.setEntry record) ∨
      (record.content.encoding? = none ∧ record.content ≠ .directive .base ∧
        record.content ≠ .directive .finish ∧ code.pushRecord record = code.keep record) := by
  unfold pushRecord
  split
  case h_1 h => exact .inr (.inl ⟨h, rfl⟩)
  case h_2 h => exact .inr (.inr (.inl ⟨h, rfl⟩))
  case h_3 h => exact .inl ⟨_, _, by rw [h]; rfl, rfl⟩
  case h_4 h => exact .inl ⟨_, _, by rw [h]; rfl, rfl⟩
  case h_5 opcode h => exact .inl ⟨_, _, by rw [h]; rfl, rfl⟩
  case h_6 hbase hfinish hbyte hword hinst =>
    -- nothing is left that has object code
    have hnone : record.content.encoding? = none := by
      unfold Content.encoding?
      split
      · contradiction
      · contradiction
      · rename_i h
        exact absurd h (hinst _)
      · rfl
    exact .inr (.inr (.inr ⟨hnone, hbase, hfinish, rfl⟩))

/-- **One record**: the run goes on by a step. -/
theorem pushRecord_step (record : Record) :
    ∃ result, Step code record result (code.pushRecord record) := by
  rcases code.pushRecord_cases record with
    ⟨format, opcode, he, hpush⟩ | ⟨h, hpush⟩ | ⟨h, hpush⟩ | ⟨he, hbase, hfinish, hpush⟩ <;>
    rw [hpush]
  · exact ⟨_, step_encode code he⟩
  · exact step_setBase code h
  · exact step_setEntry code h
  · exact step_keep code he hbase (by rw [entryAfter, if_neg fun h => hfinish h.1])

end

/-! ## Whole runs -/

/-- **Induction along a run**, over the records that are done and the run so far. -/
theorem foldl_induction {P : List Record → ObjectCode → Prop}
    (step : ∀ {done code record result next}, P done code → Step code record result next →
      P (done ++ [record]) next) : ∀ (records done : List Record) {code : ObjectCode},
    P done code → P (done ++ records) (records.foldl pushRecord code)
  | [], done, code, h => by rwa [List.append_nil]
  | record :: records, done, code, h => by
    obtain ⟨result, hstep⟩ := pushRecord_step code record
    rw [List.append_cons, List.foldl_cons]
    exact foldl_induction step records _ (step h hstep)

section
variable {init : ObjectCode}

theorem symbols_foldl (records : List Record) (init : ObjectCode) :
    (records.foldl pushRecord init).symbols = init.symbols :=
  foldl_induction (P := fun _ code => code.symbols = init.symbols)
    (fun h step => step.symbols.trans h) records [] rfl

/-- A run keeps the records it has. -/
theorem records_foldl (records : List Record) (init : ObjectCode) :
    ∃ results, (records.foldl pushRecord init).records.toList = init.records.toList ++ results :=
  foldl_induction
    (P := fun _ code => ∃ results, code.records.toList = init.records.toList ++ results)
    (fun h step => by
      obtain ⟨results, h⟩ := h
      exact ⟨_, by rw [step.records, Array.toList_push, h, List.append_assoc]⟩)
    records [] ⟨[], (List.append_nil _).symm⟩

/-- The run changes nothing of a record but its object bytes and faults. -/
theorem bare_records (hinit : init.records = #[]) (records : List Record) :
    (records.foldl pushRecord init).records.toList.map Record.bare = records.map Record.bare :=
  foldl_induction
    (P := fun done code => code.records.toList.map Record.bare = done.map Record.bare)
    (fun h step => by
      rw [step.records, Array.toList_push, List.map_append, h, List.map_append]
      simp only [List.map_cons, List.map_nil, step.bare])
    records [] (by rw [hinit])

theorem length_records (hinit : init.records = #[]) (records : List Record) :
    (records.foldl pushRecord init).records.toList.length = records.length := by
  have := congrArg List.length (bare_records hinit records)
  rwa [List.length_map, List.length_map] at this

/-- **The base register** holds what was announced last. -/
theorem base_foldl (hbase : init.base = 0) (records : List Record) :
    (records.foldl pushRecord init).base.toNat = baseAfter init.symbols records := by
  refine (foldl_induction
    (P := fun done code => code.symbols = init.symbols ∧
      code.base.toNat = baseAfter init.symbols done) ?_ records []
    ⟨rfl, by rw [hbase]; rfl⟩).2
  rintro done code record result next ⟨hs, hb⟩ step
  refine ⟨step.symbols.trans hs, ?_⟩
  rw [step.base, baseAfter_concat, hs, hb]

/-- **Each record of a run** came from a step. -/
theorem record_step (hinit : init.records = #[]) {records : List Record} {k : Nat}
    {result : Record} (h : (records.foldl pushRecord init).records.toList[k]? = some result) :
    ∃ record, records[k]? = some record ∧
      Step ((records.take k).foldl pushRecord init) record result
        ((records.take (k + 1)).foldl pushRecord init) := by
  have hk : k < records.length := by
    rw [← length_records hinit records]
    exact (List.getElem?_eq_some_iff.1 h).1
  have hsplit : records = records.take (k + 1) ++ records.drop (k + 1) :=
    (List.take_append_drop _ _).symm
  have hlast : records.take (k + 1) = records.take k ++ [records[k]] := by
    rw [List.take_add_one, List.getElem?_eq_getElem hk, Option.toList_some]
  obtain ⟨made, step⟩ := pushRecord_step ((records.take k).foldl pushRecord init) records[k]
  have hnext : (records.take (k + 1)).foldl pushRecord init =
      ((records.take k).foldl pushRecord init).pushRecord records[k] := by
    rw [hlast, List.foldl_append]
    rfl
  refine ⟨records[k], List.getElem?_eq_getElem hk, ?_⟩
  have hmade : made = result := by
    obtain ⟨results, hres⟩ :=
      records_foldl (records.drop (k + 1)) ((records.take (k + 1)).foldl pushRecord init)
    have hlen := length_records hinit (records.take k)
    rw [List.length_take_of_le (Nat.le_of_lt hk)] at hlen
    rw [hsplit, List.foldl_append, hres, hnext, step.records, Array.toList_push,
      List.append_assoc, List.getElem?_append_right (Nat.le_of_eq hlen), hlen, Nat.sub_self] at h
    exact Option.some.inj h
  rw [hnext, ← hmade]
  exact step

end

/-- Each record of an object code came from a step of a run with the program's labels and the base
register that was announced before. -/
theorem record_ofProgram {program : Program} {symbols : SymbolTable} {k : Nat} {result : Record}
    (h : (ofProgram program symbols).records.toList[k]? = some result) :
    ∃ record code next, program.records[k]? = some record ∧ Step code record result next ∧
      code.symbols = symbols ∧
      code.base.toNat = baseAfter symbols (program.records.take k) := by
  obtain ⟨record, hrecord, step⟩ := record_step rfl h
  exact ⟨record, _, _, hrecord, step, symbols_foldl _ _, base_foldl rfl _⟩

end ObjectCode

end SicXe
