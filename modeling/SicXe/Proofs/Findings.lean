import SicXe.Proofs.ObjectCodeRun

/-!
# What the second run finds in a record

`ObjectCode.Step` leaves open which fault a base or an end directive gets. Here the record behind a
step is given in full:

* `finding?`: the cause of the fault, told from the labels, the base register and the program's
  name; `bytesOf`: the object bytes.
* `settled`, `pushRecord_settled`: the record with both, which is the one that the step makes.
* `record_settled`: each record of a whole run is settled by the run over the records before it.
-/

namespace SicXe.ObjectCode

/-- Whether the operand of a record is looked up as an address: it is that of a base directive, or
of an end directive that names another place than the program. -/
def locates (code : ObjectCode) (record : Record) : Prop :=
  record.content = .directive .base ∨
    (record.content = .directive .finish ∧ record.statement.operand ≠ [] ∧
      record.statement.operand ≠ code.name)

instance (code : ObjectCode) (record : Record) : Decidable (code.locates record) :=
  inferInstanceAs (Decidable (_ ∨ _))

/-- Why an operand gives no address. -/
def refusal? (symbols : SymbolTable) (operand : Text) : Option Cause :=
  match address symbols operand with
  | .ok _ => none
  | .error cause => some cause

/-- The cause of a failed encoding, unless it is a defect. -/
def failure? : Except EncodeError Text → Option Cause
  | .error (.fault cause) => some cause
  | _ => none

/-- The cause of the fault that a run finds in a record. -/
def finding? (code : ObjectCode) (record : Record) : Option Cause :=
  match record.content.encoding? with
  | some (format, opcode) => failure? (objectOf code.symbols code.base record format opcode)
  | none =>
    if code.locates record then refusal? code.symbols record.statement.operand else none

/-- The object bytes of a record behind a run. -/
def bytesOf (code : ObjectCode) (record : Record) : Text :=
  match record.content.encoding? with
  | some (format, opcode) =>
    (objectOf code.symbols code.base record format opcode).toOption.getD record.object
  | none => record.object

/-- The fault that a run finds in a record, at its operand. -/
def found (code : ObjectCode) (record : Record) : List Fault :=
  ((code.finding? record).map (record.faultAt record.statement.operand)).toList

/-- The record with what a run finds. -/
def settled (code : ObjectCode) (record : Record) : Record :=
  { record with object := code.bytesOf record, faults := record.faults ++ code.found record }

section
variable (code : ObjectCode) {record : Record}

theorem settle_eq_settled {format : Format} {opcode : UInt8}
    (he : record.content.encoding? = some (format, opcode)) :
    record.settle (objectOf code.symbols code.base record format opcode) = code.settled record := by
  unfold settled found finding? bytesOf
  rw [he]
  dsimp only
  match objectOf code.symbols code.base record format opcode with
  | .ok object => simp [Record.settle, failure?, Except.toOption]
  | .error (.defect defect) => simp [Record.settle, failure?, Except.toOption]
  | .error (.fault cause) => rfl

theorem found_encode {format : Format} {opcode : UInt8}
    (he : record.content.encoding? = some (format, opcode)) :
    (code.encode record format opcode).faults = code.faults ++ (code.found record).toArray := by
  obtain ⟨found, faults, notes, defects, hencode, hfaults, hfound⟩ :=
    code.encode_eq record format opcode
  rw [settle_eq_settled code he] at hfound
  have hlist : code.found record = found := List.append_cancel_left hfound
  rw [hencode, hlist]
  exact hfaults

theorem settled_of_none (he : record.content.encoding? = none)
    (hf : code.finding? record = none) : code.settled record = record ∧ code.found record = [] := by
  have hfound : code.found record = [] := by rw [found, hf]; rfl
  refine ⟨?_, hfound⟩
  rw [settled, hfound, bytesOf, he, List.append_nil]

/-- A directive whose operand is looked up as an address and gives none. -/
theorem fail_eq_settled (he : record.content.encoding? = none) {cause : Cause}
    (hf : code.finding? record = some cause) :
    (code.fail record cause).records = code.records.push (code.settled record) ∧
      (code.fail record cause).faults = code.faults ++ (code.found record).toArray := by
  have hfound : code.found record = [record.faultAt record.statement.operand cause] := by
    rw [found, hf]
    rfl
  rw [settled, hfound, bytesOf, he]
  exact ⟨rfl, Array.push_eq_append ..⟩

private theorem settled_setBase (h : record.content = .directive .base) :
    (code.setBase record).records = code.records.push (code.settled record) ∧
      (code.setBase record).faults = code.faults ++ (code.found record).toArray := by
  have he := encoding?_directive (.inl h)
  have hfinding : code.finding? record = refusal? code.symbols record.statement.operand := by
    rw [finding?, he]
    exact if_pos (.inl h)
  rw [setBase]
  cases ha : address code.symbols record.statement.operand with
  | error cause =>
    apply fail_eq_settled code he
    rw [hfinding, refusal?, ha]
  | ok base =>
    obtain ⟨hsettled, hfound⟩ := settled_of_none code he (by rw [hfinding, refusal?, ha])
    rw [hsettled, hfound]
    exact ⟨rfl, (Array.append_empty ..).symm⟩

private theorem settled_setEntry (h : record.content = .directive .finish) :
    (code.setEntry record).records = code.records.push (code.settled record) ∧
      (code.setEntry record).faults = code.faults ++ (code.found record).toArray := by
  have he := encoding?_directive (.inr h)
  -- the operand is empty, the program's name, or looked up as an address
  have hquiet (hn : ¬ code.locates record) :
      code.settled record = record ∧ code.found record = [] := by
    apply settled_of_none code he
    rw [finding?, he]
    exact if_neg hn
  rw [setEntry]
  dsimp only
  split
  case isTrue ho =>
    obtain ⟨hsettled, hfound⟩ := hquiet (by simp [locates, h, ho])
    rw [hsettled, hfound]
    exact ⟨rfl, (Array.append_empty ..).symm⟩
  case isFalse ho =>
    split
    case isTrue hname =>
      obtain ⟨hsettled, hfound⟩ := hquiet (by simp [locates, h, hname])
      rw [hsettled, hfound]
      exact ⟨rfl, (Array.append_empty ..).symm⟩
    case isFalse hname =>
      have hfinding : code.finding? record = refusal? code.symbols record.statement.operand := by
        rw [finding?, he]
        exact if_pos (.inr ⟨h, ho, hname⟩)
      cases ha : address code.symbols record.statement.operand with
      | error cause =>
        apply fail_eq_settled code he
        rw [hfinding, refusal?, ha]
      | ok entry =>
        obtain ⟨hsettled, hfound⟩ := settled_of_none code he (by rw [hfinding, refusal?, ha])
        rw [hsettled, hfound]
        exact ⟨rfl, (Array.append_empty ..).symm⟩

/-- The record that a step adds, and the faults that it reports. -/
theorem records_pushRecord (record : Record) :
    (code.pushRecord record).records = code.records.push (code.settled record) ∧
      (code.pushRecord record).faults = code.faults ++ (code.found record).toArray := by
  rcases code.pushRecord_cases record with
    ⟨format, opcode, he, hpush⟩ | ⟨h, hpush⟩ | ⟨h, hpush⟩ | ⟨he, hbase, hfinish, hpush⟩
  · refine ⟨?_, hpush ▸ found_encode code he⟩
    obtain ⟨found, faults, notes, defects, hencode, -, -⟩ := code.encode_eq record format opcode
    rw [hpush, hencode, ← settle_eq_settled code he]
    rfl
  · rw [hpush]
    exact settled_setBase code h
  · rw [hpush]
    exact settled_setEntry code h
  · have hfinding : code.finding? record = none := by
      rw [finding?, he]
      exact if_neg (by simp [locates, hbase, hfinish])
    obtain ⟨hsettled, hfound⟩ := settled_of_none code he hfinding
    rw [hpush, hsettled, hfound]
    exact ⟨rfl, (Array.append_empty ..).symm⟩

/-- **One record**: the step to the settled record. -/
theorem pushRecord_settled (record : Record) :
    Step code record (code.settled record) (code.pushRecord record) := by
  obtain ⟨result, step⟩ := code.pushRecord_step record
  have hpush := step.records.symm.trans (code.records_pushRecord record).1
  obtain ⟨rfl, -⟩ := Array.push_eq_push.1 hpush
  exact step

end

/-- **Each record of a run** is settled by the run over the records in front of it. -/
theorem record_settled {init : ObjectCode} (hinit : init.records = #[]) {records : List Record}
    {k : Nat} {result : Record}
    (h : (records.foldl pushRecord init).records.toList[k]? = some result) :
    ∃ record, records[k]? = some record ∧
      result = ((records.take k).foldl pushRecord init).settled record := by
  obtain ⟨record, hrecord, step⟩ := record_step hinit h
  refine ⟨record, hrecord, ?_⟩
  have hnext : (records.take (k + 1)).foldl pushRecord init =
      ((records.take k).foldl pushRecord init).pushRecord record := by
    rw [List.take_add_one, hrecord, List.foldl_append]
    rfl
  have hpush := step.records
  rw [hnext, (records_pushRecord _ record).1] at hpush
  exact (Array.push_eq_push.1 hpush).1.symm

end SicXe.ObjectCode
