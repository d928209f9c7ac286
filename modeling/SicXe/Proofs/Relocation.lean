import SicXe.Proofs.Restart

/-!
# Relocation

What of the object code depends on where a program starts:

* `Instruction.encode_of_not_relative`: only an address field that is counted from the statement or
  the base register depends on where they are.
* `Operand.resolve_of_not_symbol`, `ObjectCode.objectOf_fixed`: an operand that is no label stands
  for the same everywhere, and so do the object bytes.
* `Record.isFromStatement_iff`, `ObjectCode.objectOf_near`: a distance from the statement is the
  same everywhere.
* `ObjectCode.objectOf_marked`: a full address field has the address of the label.
* `Assembly.relocated`: the object code of two programs that differ in their start address only.
-/

namespace SicXe

/-! ## Encoding without distances -/

namespace Instruction

variable {inst : Instruction}

theorem displacement_of_not_relative
    (h : inst.target.kind = .none ∨ inst.isRelative = false) (source base : UInt32) :
    { inst with source, base }.displacement = inst.displacement := by
  have hrelative : { inst with source, base }.isRelative = inst.isRelative := rfl
  have hvalue : { inst with source, base }.effectiveValue = inst.effectiveValue := rfl
  unfold displacement
  rw [hrelative, hvalue]
  rcases h with h | h <;> simp only [h, ↓reduceIte, Bool.false_eq_true]

theorem encode_of_not_relative
    (h : inst.target.kind = .none ∨ inst.isRelative = false) (source base : UInt32) :
    { inst with source, base }.encode = inst.encode := by
  unfold encode
  rw [displacement_of_not_relative h]
  rfl

/-- A label near the statement: the object bytes are those of the distance. -/
theorem encode_distance {target : UInt32} {text : Text}
    (htarget : inst.target = { kind := .symbol, value := Int64.ofInt target.toNat, text })
    (hformat : inst.format = .three)
    (hnear : -2048 ≤ (target.toNat : Int) - inst.source.toNat ∧
      (target.toNat : Int) - inst.source.toNat ≤ 2047) :
    inst.encode = layOut .three inst.opcode { n := true, i := true, p := true }
      (Word.mask (Int64.ofInt (target.toNat - inst.source.toNat)) 12) 0 := by
  have hvalue : inst.effectiveValue - Int64.ofInt inst.source.toNat =
      Int64.ofInt (target.toNat - inst.source.toNat) := by
    rw [effectiveValue_relative htarget, ← Int64.toInt_inj, toInt_sub_addresses,
      Int64.toInt_ofInt_of_le (by omega) (by omega)]
  have hfield : inst.displacement =
      .ok ⟨Word.mask (Int64.ofInt (target.toNat - inst.source.toNat)) 12, .statement⟩ := by
    rw [displacement_relative htarget hformat, relativeDisplacement,
      if_pos ((fits_statement htarget).2 hnear), hvalue]
  rw [encode_of_field (by simp [hformat]) (by simp [htarget]) hfield]
  simp [hformat, addressingFlags, htarget, withOrigin]

end Instruction

/-! ## Operands under other labels -/

namespace Operand

variable {symbols symbols' : SymbolTable} {text name : Text} {format : Format}

theorem resolveLabel_of_none (hget : symbols.get? name = none) (hget' : symbols'.get? name = none)
    (operand : Operand) :
    resolveLabel operand name symbols' = resolveLabel operand name symbols := by
  rw [resolveLabel, resolveLabel, hget, hget']

/-- A name that is not resolved to a label is none. -/
theorem get?_of_resolveName {operand : Operand} (hne : name ≠ [])
    (h : (resolveName operand name format symbols).operand.kind ≠ .symbol) :
    symbols.get? name = none := by
  cases hget : symbols.get? name with
  | none => rfl
  | some address =>
    rw [resolveName, if_neg hne, hget] at h
    exact absurd rfl h

theorem kind_resolveName (hget : symbols.get? name = none) (operand : Operand) :
    (resolveName operand name format symbols).operand.kind ≠ .symbol := by
  by_cases hnil : name = []
  · rw [resolveName, if_pos hnil]
    intro hkind
    cases hkind
  · rw [resolveName, if_neg hnil, hget]
    dsimp only
    cases Numeral.decodeCount name with
    | ok value =>
      dsimp only
      split <;> intro hkind <;> cases hkind
    | error _ =>
      cases register? name with
      | some number =>
        intro hkind
        cases hkind
      | none =>
        dsimp only
        rw [resolveLabel, hget]
        dsimp only
        split <;> intro hkind <;> cases hkind

theorem resolveName_of_none (hget : symbols.get? name = none) (hget' : symbols'.get? name = none)
    (operand : Operand) :
    resolveName operand name format symbols' = resolveName operand name format symbols := by
  rw [resolveName, resolveName, hget, hget']
  simp only [resolveLabel_of_none hget hget']

/-- **An operand that is no label stands for the same** under all symbol tables without further
labels. -/
theorem resolve_of_not_symbol
    (hlabels : ∀ label, symbols.get? label = none → symbols'.get? label = none)
    (h : (resolve text format symbols).operand.kind ≠ .symbol) :
    resolve text format symbols' = resolve text format symbols := by
  have hmemory (hkind : (resolveMemory text format symbols).operand.kind ≠ .symbol) :
      resolveMemory text format symbols' = resolveMemory text format symbols := by
    unfold resolveMemory at hkind ⊢
    split
    case isTrue => rfl
    case isFalse htext =>
      rw [if_neg htext] at hkind
      dsimp only at hkind ⊢
      split
      case isTrue => rfl
      case isFalse hmark =>
        rw [if_neg hmark] at hkind
        by_cases hne : (splitIndex (splitMarker text).2).2 = []
        · rw [resolveName, resolveName, if_pos hne, if_pos hne]
        · have hget := get?_of_resolveName hne hkind
          exact resolveName_of_none hget (hlabels _ hget) _
  cases format with
  | one | two | byte => rfl
  | sic | three | four | unknown => exact hmemory h
  | word =>
    unfold resolve at h ⊢
    dsimp only at h ⊢
    cases hconstant : wordConstant? text with
    | some value => rfl
    | none =>
      rw [hconstant] at h
      have hget : symbols.get? text = none := by
        cases hget : symbols.get? text with
        | none => rfl
        | some address =>
          dsimp only at h
          rw [resolveLabel, hget] at h
          exact absurd rfl h
      exact resolveLabel_of_none hget (hlabels _ hget) _

/-- No operand is nothing under all symbol tables without an empty label. -/
theorem resolve_nil (hget : symbols.get? [] = none) (hget' : symbols'.get? [] = none) :
    resolve [] format symbols' = resolve [] format symbols := by
  cases format with
  | one | two | byte | sic | three | four | unknown => rfl
  | word => exact resolveLabel_of_none hget hget' _

theorem splitIndex_eq_true (hne : name ≠ []) : splitIndex (name ++ indexEnding) = (true, name) := by
  have hlength : indexEnding.length < (name ++ indexEnding).length := by
    have := List.length_pos_iff.2 hne
    rw [List.length_append]
    omega
  rw [splitIndex, if_pos ⟨hlength, List.isSuffixOf_iff_suffix.2 (List.suffix_append _ _)⟩,
    List.length_append, Nat.add_sub_cancel, List.take_left]

/-- An operand without a mark, indexed or not, is resolved by its name. -/
theorem resolveMemory_simple {indexed : Bool} (hmarked : Marked text .simple name indexed)
    (hne : name ≠ []) (format : Format) (symbols : SymbolTable) :
    resolveMemory text format symbols = resolveName { text, indexed } name format symbols := by
  have hparts : text = name ++ if indexed then indexEnding else [] := hmarked.parts
  have htext : text ≠ [] := by
    rw [hparts]
    simp [hne]
  obtain ⟨himmediate, hindirect⟩ : text.head? ≠ some immediateMarker ∧
      text.head? ≠ some indirectMarker := by simpa using hmarked.mark
  have hindex : splitIndex text = (indexed, name) := by
    cases indexed with
    | true =>
      rw [hparts]
      exact splitIndex_eq_true hne
    | false =>
      have hname : text = name := by simpa using hparts
      rw [hname]
      exact splitIndex_eq_false (by simpa using hmarked.ending)
  rw [resolveMemory, if_neg htext, splitMarker_eq_simple himmediate hindirect]
  dsimp only
  rw [hindex, if_neg (by simp)]

end Operand

/-! ## Object bytes -/

namespace ObjectCode

open Operand

variable {symbols symbols' : SymbolTable} {record record' : Record} {format : Format}
  {opcode : UInt8}

/-- What makes the object bytes of a statement the same everywhere: its format has no address
field, or its operand is absent or no label. -/
def IsFixed (symbols : SymbolTable) (format : Format) (operand : Text) : Prop :=
  format = .one ∨ format = .two ∨ format = .byte ∨ operand = [] ∨
    (resolve operand format symbols).operand.kind ≠ .symbol

theorem IsFixed.resolve (h : IsFixed symbols format record.statement.operand)
    (hempty : symbols.get? [] = none)
    (hlabels : ∀ label, symbols.get? label = none → symbols'.get? label = none) :
    resolve record.statement.operand format symbols' =
      resolve record.statement.operand format symbols := by
  rcases h with rfl | rfl | rfl | hnil | hkind
  · rfl
  · rfl
  · rfl
  · rw [hnil]
    exact resolve_nil hempty (hlabels [] hempty)
  · exact resolve_of_not_symbol hlabels hkind

theorem IsFixed.not_relative (h : IsFixed symbols format record.statement.operand)
    (hok : (Operand.resolve record.statement.operand format symbols).failure = none)
    (opcode : UInt8) (base : UInt32) :
    let inst := instruction record (Operand.resolve record.statement.operand format symbols).operand
      format opcode base
    inst.target.kind = .none ∨ inst.isRelative = false := by
  by_cases hthree : format = .three
  · subst hthree
    by_cases hnil : record.statement.operand = []
    · rw [hnil]
      exact .inl rfl
    · obtain ⟨addressing, name, indexed, value, -, -, -, hoperand⟩ := resolveMemory_ok hnil hok
      have hkind : (Operand.resolve record.statement.operand .three symbols).operand.kind ≠
          .symbol := by
        rcases h with h | h | h | h | h
        · cases h
        · cases h
        · cases h
        · exact absurd h hnil
        · exact h
      have hlabel : ¬ (symbols.get? name).isSome = true := fun hsome =>
        hkind ((congrArg Operand.kind hoperand).trans (if_pos hsome))
      have hliteral : (Operand.resolve record.statement.operand .three symbols).operand.kind =
          .literal := (congrArg Operand.kind hoperand).trans (if_neg hlabel)
      right
      simp [Instruction.isRelative, instruction, hliteral]
  · right
    simp [Instruction.isRelative, instruction, hthree]

/-- **Fixed object bytes** do not depend on addresses. -/
theorem objectOf_fixed (h : IsFixed symbols format record.statement.operand)
    (hstatement : record.statement = record'.statement) (hempty : symbols.get? [] = none)
    (hlabels : ∀ label, symbols.get? label = none → symbols'.get? label = none)
    (base base' : UInt32) :
    objectOf symbols' base' record' format opcode = objectOf symbols base record format opcode := by
  have hresolve := h.resolve hempty hlabels
  unfold objectOf
  dsimp only
  rw [← hstatement, hresolve]
  cases hok : (Operand.resolve record.statement.operand format symbols).failure with
  | some cause => rfl
  | none =>
    dsimp only
    rw [← Instruction.encode_of_not_relative (h.not_relative hok opcode base) record'.address base',
      instruction, instruction, hstatement]

/-- **A label near the statement** has the same object bytes at the same distance. -/
theorem objectOf_near {target target' : UInt32} (hne : record.statement.operand ≠ [])
    (hplain : PlainReference symbols record.statement.operand target)
    (hplain' : PlainReference symbols' record.statement.operand target')
    (hstatement : record.statement = record'.statement) (hnear : record.IsNear target)
    (hdistance : (target'.toNat : Int) - record'.address.toNat =
      target.toNat - record.address.toNat) (base base' : UInt32) :
    objectOf symbols' base' record' .three opcode = objectOf symbols base record .three opcode := by
  obtain ⟨inst, hinst, htarget, hformat, hcode, hsource, -⟩ :=
    objectOf_plain base record opcode hne hplain
  rw [hstatement] at hne hplain'
  obtain ⟨inst', hinst', htarget', hformat', hcode', hsource', -⟩ :=
    objectOf_plain base' record' opcode hne hplain'
  have hreach : -2048 ≤ (target.toNat : Int) - inst.source.toNat ∧
      (target.toNat : Int) - inst.source.toNat ≤ 2047 := by
    rw [hsource]
    exact hnear
  have hreach' : -2048 ≤ (target'.toNat : Int) - inst'.source.toNat ∧
      (target'.toNat : Int) - inst'.source.toNat ≤ 2047 := by
    rw [hsource', hdistance]
    exact hnear
  rw [hinst, hinst', Instruction.encode_distance htarget hformat hreach,
    Instruction.encode_distance htarget' hformat' hreach', hcode, hcode', hsource, hsource',
    hdistance]

/-- **A label in a full address field**, indexed or not: the field has the low bits of its
address. -/
theorem objectOf_marked {name : Text} {indexed : Bool} {target : UInt32}
    (hformat : format = .sic ∨ format = .four)
    (hmarked : Marked record.statement.operand .simple name indexed) (hne : name ≠ [])
    (hget : symbols.get? name = some target) (base : UInt32) :
    ∃ object decoded, objectOf symbols base record format opcode = .ok object ∧
      decode? format object = some decoded ∧
      decoded.opcode = (if format = .sic then opcode.toNat else opcode.toNat / 4) ∧
      decoded.flags = Instruction.flagsOf format .simple indexed ∧
      decoded.field = target.toNat % 2 ^ format.addressBits := by
  have hmemory : format = .sic ∨ format = .three ∨ format = .four := hformat.imp_right .inr
  have hobject : objectOf symbols base record format opcode =
      (instruction record
        (toSymbol { text := record.statement.operand, indexed } target).operand format opcode
        base).encode := by
    unfold objectOf
    rw [resolve_memory hmemory, resolveMemory_simple hmarked hne, resolveName, if_neg hne, hget]
    rfl
  obtain ⟨object, decoded, hencode, hdecode, hopcode, hflags, hfield⟩ := Instruction.encode_absolute
    (instruction record (toSymbol { text := record.statement.operand, indexed } target).operand
      format opcode base) hmemory (.inl rfl)
    (by rcases hformat with rfl | rfl <;> rfl) rfl
  refine ⟨object, decoded, hobject.trans hencode, hdecode, hopcode, hflags, ?_⟩
  have hvalue := toInt_ofInt_address target
  simp only [instruction, toSymbol, hvalue] at hfield
  exact_mod_cast hfield

end ObjectCode

/-- The address field of a record of format 3 is counted from the statement. -/
def Record.IsFromStatement (record : Record) : Prop :=
  ∃ decoded, decode? .three record.object = some decoded ∧ decoded.flags.p = true

/-- A label is counted from the statement if and only if it is near enough. -/
theorem Record.isFromStatement_iff {record : Record} {base : Nat} {target : UInt32}
    (h : record.LeadsTo base target .three) : record.IsFromStatement ↔ record.IsNear target := by
  unfold IsFromStatement
  cases h with
  | field long => simp at long
  | near near _ object => exact ⟨fun _ => near, fun _ => ⟨_, object, rfl⟩⟩
  | based far _ object => simp [object, far]
  | beyond far object => simp [object, far, decode?]

/-! ## Assemblies -/

namespace Assembly

open Operand

/-- Two assemblies whose programs start at a distance of `shift`, from the record `first` on. -/
structure Relocated (first : Nat) (shift : Int) (assembly assembly' : Assembly) : Prop where
  name : assembly'.program.name = assembly.program.name
  length : assembly'.program.length = assembly.program.length
  /-- The labels are the same, and their addresses are shifted. -/
  labels : ∀ label, (assembly'.symbols.get? label).map (fun address => (address.toNat : Int)) =
    (assembly.symbols.get? label).map fun address => address.toNat + shift
  count : assembly'.program.records.length = assembly.program.records.length
  record : ∀ (k : Nat) record record', assembly.program.records[k]? = some record →
    assembly'.program.records[k]? = some record' →
    record'.content = record.content ∧ record'.width = record.width ∧
      (first ≤ k → (record'.address.toNat : Int) = record.address.toNat + shift)
  /-- A name in format 3, without mark and ending. -/
  near : ∀ (k : Nat) record record' opcode name, assembly.program.records[k]? = some record →
    assembly'.program.records[k]? = some record' → record.content = .instruction opcode →
    opcode.format = .three → Marked record.statement.operand .simple name false →
    (record'.IsFromStatement ↔ record.IsFromStatement) ∧
      (record.IsFromStatement → record'.object = record.object)
  fixed : ∀ (k : Nat) record record' format opcode, assembly.program.records[k]? = some record →
    assembly'.program.records[k]? = some record' →
    record.content.encoding? = some (format, opcode) →
    ObjectCode.IsFixed assembly.symbols format record.statement.operand →
    record'.object = record.object
  /-- A label in a full address field, without mark. -/
  field : ∀ (k : Nat) record record' opcode name indexed target,
    assembly.program.records[k]? = some record → assembly'.program.records[k]? = some record' →
    record.content = .instruction opcode → opcode.format = .sic ∨ opcode.format = .four →
    Marked record.statement.operand .simple name indexed →
    assembly.symbols.get? name = some target →
    ∃ decoded decoded', decode? opcode.format record.object = some decoded ∧
      decode? opcode.format record'.object = some decoded' ∧ decoded'.opcode = decoded.opcode ∧
      decoded'.flags = decoded.flags ∧
      (decoded'.field : Int) = (decoded.field + shift) % 2 ^ opcode.format.addressBits

variable {mode : Mode} {front rest : List Text} {line line' : Text}

theorem object_settled {record : Record} {outcome : Except EncodeError Text}
    (h : record = record.bare.settle outcome) : record.object = outcome.toOption.getD [] := by
  rw [h]
  match outcome with
  | .ok _ | .error (.fault _) | .error (.defect _) => rfl

section
variable (h : Layout.Restart front line line')
  (hfree : (ofLines mode (front ++ line :: rest)).program.errorFree = true)
  (hfree' : (ofLines mode (front ++ line' :: rest)).program.errorFree = true)
  {start start' : UInt32}
  (hdecode : Numeral.decodeAddress (Statement.ofLine line).operand = .ok start)
  (hdecode' : Numeral.decodeAddress (Statement.ofLine line').operand = .ok start')
include h hfree hfree' hdecode hdecode'

theorem get?_relocated {label : Text} {address : UInt32}
    (hget : (ofLines mode (front ++ line :: rest)).symbols.get? label = some address) :
    ∃ address', (ofLines mode (front ++ line' :: rest)).symbols.get? label = some address' ∧
      (address'.toNat : Int) = address.toNat + (start'.toNat - start.toNat) := by
  rw [symbols_ofLines] at hget ⊢
  exact Layout.get?_restart h (errorFree_ofLines ▸ hfree) (errorFree_ofLines ▸ hfree') hdecode
    hdecode' hget

theorem get?_none_relocated {label : Text}
    (hget : (ofLines mode (front ++ line :: rest)).symbols.get? label = none) :
    (ofLines mode (front ++ line' :: rest)).symbols.get? label = none := by
  cases hget' : (ofLines mode (front ++ line' :: rest)).symbols.get? label with
  | none => rfl
  | some address =>
    obtain ⟨_, hsome, -⟩ := get?_relocated h.symm hfree' hfree hdecode' hdecode hget'
    rw [hget] at hsome
    cases hsome

section
variable {k : Nat} {record record' : Record}
  (hr : (ofLines mode (front ++ line :: rest)).program.records[k]? = some record)
  (hr' : (ofLines mode (front ++ line' :: rest)).program.records[k]? = some record')
include hr hr'

theorem record_relocated :
    record'.content = record.content ∧ record'.width = record.width ∧
      (front.length ≤ k →
        (record'.address.toNat : Int) = record.address.toNat + (start'.toNat - start.toNat)) := by
  have hlaid := (record_outcome hfree hr).1
  have hlaid' := (record_outcome hfree' hr').1
  obtain ⟨hcontent, hwidth, -⟩ := Layout.record_restart h hlaid hlaid'
  have haddress := Layout.address_restart h (errorFree_ofLines ▸ hfree)
    (errorFree_ofLines ▸ hfree') hdecode hdecode' hlaid hlaid'
  exact ⟨hcontent.symm, hwidth.symm, haddress⟩

/-- A record that is encoded stands behind the start, and both programs have its statement. -/
theorem statement_relocated (hencoding : record.content.encoding?.isSome = true) :
    record.statement = record'.statement ∧
      (record'.address.toNat : Int) = record.address.toNat + (start'.toNat - start.toNat) := by
  have hlaid := (record_outcome hfree hr).1
  have hlaid' := (record_outcome hfree' hr').1
  obtain ⟨-, step⟩ := Layout.record_step hlaid
  have hcomment : record.source.isComment = false := by
    rw [← Bool.not_eq_true]
    intro hc
    have hcontent : record.content = .comment := by
      rw [show record.content = record.bare.content from rfl, step.content, Layout.contentOf]
      exact if_pos hc
    rw [hcontent] at hencoding
    cases hencoding
  have hbehind : front.length ≤ k := Layout.le_of_not_comment h hlaid hcomment
  refine ⟨?_, (record_relocated h hfree hfree' hdecode hdecode' hr hr').2.2 hbehind⟩
  obtain ⟨-, -, ⟨hstart, -⟩ | ⟨-, hstatement⟩⟩ := Layout.record_restart h hlaid hlaid'
  · rw [show record.content = .directive .start from hstart] at hencoding
    cases hencoding
  · exact hstatement

/-- The two encodings of a statement that both programs have. -/
theorem encoded_relocated {format : Format} {opcode : UInt8}
    (hencoding : record.content.encoding? = some (format, opcode)) :
    ∃ base base',
      record = record.bare.settle (ObjectCode.objectOf
        (ofLines mode (front ++ line :: rest)).symbols base record.bare format opcode) ∧
      record' = record'.bare.settle (ObjectCode.objectOf
        (ofLines mode (front ++ line' :: rest)).symbols base' record'.bare format opcode) := by
  have hencoding' : record'.content.encoding? = some (format, opcode) := by
    rw [(record_relocated h hfree hfree' hdecode hdecode' hr hr').1, hencoding]
  obtain ⟨-, -, base, -, houtcome⟩ := record_outcome hfree hr
  obtain ⟨-, -, base', -, houtcome'⟩ := record_outcome hfree' hr'
  exact ⟨base, base', houtcome _ _ hencoding, houtcome' _ _ hencoding'⟩

theorem near_relocated {opcode : Opcode} {target : UInt32}
    (hcontent : record.content = .instruction opcode) (hformat : opcode.format = .three)
    (hplain : PlainReference (ofLines mode (front ++ line :: rest)).symbols
      record.statement.operand target) :
    (record'.IsFromStatement ↔ record.IsFromStatement) ∧
      (record.IsFromStatement → record'.object = record.object) := by
  have hencoding : record.content.encoding? = some (.three, opcode.code) := by
    rw [hcontent, ← hformat]
    rfl
  obtain ⟨hstatement, haddress⟩ := statement_relocated h hfree hfree' hdecode hdecode' hr hr'
    (by rw [hencoding]; rfl)
  obtain ⟨target', hget', htarget⟩ :=
    get?_relocated h hfree hfree' hdecode hdecode' hplain.defined
  have hplain' : PlainReference (ofLines mode (front ++ line' :: rest)).symbols
      record.statement.operand target' := ⟨hget', hplain.unmarked, hplain.unindexed⟩
  have hne := ne_nil_of_get? hplain.defined
  obtain ⟨base, base', hsettle, hsettle'⟩ :=
    encoded_relocated h hfree hfree' hdecode hdecode' hr hr' hencoding
  -- the distance from the statement is the same in both programs
  have hdistance : (target'.toNat : Int) - record'.address.toNat =
      target.toNat - record.address.toNat := by omega
  have hnear : record'.IsNear target' ↔ record.IsNear target := by
    rw [Record.IsNear, Record.IsNear, hdistance]
  have hiff := Record.isFromStatement_iff (ObjectCode.leadsTo_three hne hplain hsettle)
  have hiff' := Record.isFromStatement_iff
    (ObjectCode.leadsTo_three (hstatement ▸ hne) (hstatement ▸ hplain') hsettle')
  refine ⟨hiff'.trans (hnear.trans hiff.symm), fun hfrom => ?_⟩
  rw [object_settled hsettle, object_settled hsettle']
  congr 2
  exact ObjectCode.objectOf_near hne hplain hplain' hstatement (hiff.1 hfrom) hdistance base base'

theorem fixed_relocated {format : Format} {opcode : UInt8}
    (hencoding : record.content.encoding? = some (format, opcode))
    (hfixed : ObjectCode.IsFixed (ofLines mode (front ++ line :: rest)).symbols format
      record.statement.operand) : record'.object = record.object := by
  obtain ⟨hstatement, -⟩ := statement_relocated h hfree hfree' hdecode hdecode' hr hr'
    (by rw [hencoding]; rfl)
  obtain ⟨base, base', hsettle, hsettle'⟩ :=
    encoded_relocated h hfree hfree' hdecode hdecode' hr hr' hencoding
  rw [object_settled hsettle, object_settled hsettle']
  congr 2
  exact ObjectCode.objectOf_fixed hfixed hstatement get?_nil
    (fun _ => get?_none_relocated h hfree hfree' hdecode hdecode') base base'

/-- A name without mark and ending, whether it is a label or not. -/
theorem name_relocated {opcode : Opcode} {name : Text}
    (hcontent : record.content = .instruction opcode) (hformat : opcode.format = .three)
    (hmarked : Marked record.statement.operand .simple name false) :
    (record'.IsFromStatement ↔ record.IsFromStatement) ∧
      (record.IsFromStatement → record'.object = record.object) := by
  cases hget : (ofLines mode (front ++ line :: rest)).symbols.get? name with
  | some target =>
    exact near_relocated h hfree hfree' hdecode hdecode' hr hr' hcontent hformat
      (.of_marked hmarked hget)
  | none =>
    have hfixed : ObjectCode.IsFixed (ofLines mode (front ++ line :: rest)).symbols opcode.format
        record.statement.operand := by
      by_cases hnil : name = []
      · have hparts : record.statement.operand = name ++ [] := hmarked.parts
        have hoperand : record.statement.operand = [] := by rw [hparts, hnil, List.append_nil]
        exact .inr (.inr (.inr (.inl hoperand)))
      · refine .inr (.inr (.inr (.inr ?_)))
        rw [hformat, ObjectCode.resolve_memory (.inr (.inl rfl)), resolveMemory_simple hmarked hnil]
        exact kind_resolveName hget _
    have hobject := fixed_relocated h hfree hfree' hdecode hdecode' hr hr' (by rw [hcontent]; rfl)
      hfixed
    rw [Record.IsFromStatement, Record.IsFromStatement, hobject]
    exact ⟨.rfl, fun _ => rfl⟩

theorem field_relocated {opcode : Opcode} {name : Text} {indexed : Bool} {target : UInt32}
    (hcontent : record.content = .instruction opcode)
    (hformat : opcode.format = .sic ∨ opcode.format = .four)
    (hmarked : Marked record.statement.operand .simple name indexed)
    (hget : (ofLines mode (front ++ line :: rest)).symbols.get? name = some target) :
    ∃ decoded decoded', decode? opcode.format record.object = some decoded ∧
      decode? opcode.format record'.object = some decoded' ∧ decoded'.opcode = decoded.opcode ∧
      decoded'.flags = decoded.flags ∧
      (decoded'.field : Int) =
        (decoded.field + (start'.toNat - start.toNat)) % 2 ^ opcode.format.addressBits := by
  have hencoding : record.content.encoding? = some (opcode.format, opcode.code) := by
    rw [hcontent]
    rfl
  obtain ⟨hstatement, -⟩ := statement_relocated h hfree hfree' hdecode hdecode' hr hr'
    (by rw [hencoding]; rfl)
  obtain ⟨target', hget', htarget⟩ := get?_relocated h hfree hfree' hdecode hdecode' hget
  have hne := ne_nil_of_get? hget
  obtain ⟨base, base', hsettle, hsettle'⟩ :=
    encoded_relocated h hfree hfree' hdecode hdecode' hr hr' hencoding
  obtain ⟨object, decoded, hobject, hdecoded, hopcode, hflags, hfield⟩ :=
    @ObjectCode.objectOf_marked _ record.bare _ opcode.code _ _ _ hformat hmarked hne hget base
  obtain ⟨object', decoded', hobject', hdecoded', hopcode', hflags', hfield'⟩ :=
    @ObjectCode.objectOf_marked _ record'.bare _ opcode.code _ _ _ hformat
      (hstatement ▸ hmarked) hne hget' base'
  obtain ⟨rfl, -⟩ := settled_ok (hobject ▸ hsettle)
  obtain ⟨rfl, -⟩ := settled_ok (hobject' ▸ hsettle')
  refine ⟨decoded, decoded', hdecoded, hdecoded', by rw [hopcode, hopcode'],
    by rw [hflags, hflags'], ?_⟩
  rw [hfield, hfield']
  push_cast
  rw [htarget, Int.emod_add_emod]

end

end

/-- **Relocation.** Two programs that differ in their start address only, and are laid out without a
fault, have the same labels, records and object bytes, but for the shift of addresses. -/
theorem relocated (h : Layout.Restart front line line')
    (hfree : (ofLines mode (front ++ line :: rest)).program.errorFree = true)
    (hfree' : (ofLines mode (front ++ line' :: rest)).program.errorFree = true)
    {start start' : UInt32}
    (hdecode : Numeral.decodeAddress (Statement.ofLine line).operand = .ok start)
    (hdecode' : Numeral.decodeAddress (Statement.ofLine line').operand = .ok start') :
    Relocated front.length (start'.toNat - start.toNat) (ofLines mode (front ++ line :: rest))
      (ofLines mode (front ++ line' :: rest)) := by
  obtain ⟨hname, -, hlength⟩ := program_ofLines hfree
  obtain ⟨hname', -, hlength'⟩ := program_ofLines hfree'
  refine ⟨?name, ?length, ?labels, ?count, ?record, ?near, ?fixed, ?field⟩
  case name =>
    have hat (first : Text) : (front ++ first :: rest)[front.length]? = some first := by simp
    rw [hname, hname', Layout.name_of_beginning (Layout.beginning?_restart h.idle h.first) (hat _),
      Layout.name_of_beginning (Layout.beginning?_restart h.idle h.second) (hat _), h.label]
  case length => rw [hlength, hlength', Layout.length_restart h]
  case count => rw [count_ofLines hfree, count_ofLines hfree', Layout.count_restart h]
  case labels =>
    intro label
    cases hget : (ofLines mode (front ++ line :: rest)).symbols.get? label with
    | none =>
      rw [get?_none_relocated h hfree hfree' hdecode hdecode' hget]
      rfl
    | some address =>
      obtain ⟨address', hget', hshift⟩ := get?_relocated h hfree hfree' hdecode hdecode' hget
      rw [hget', Option.map_some, Option.map_some, hshift]
  case record =>
    intro k record record' hr hr'
    exact record_relocated h hfree hfree' hdecode hdecode' hr hr'
  case near =>
    intro k record record' opcode name hr hr'
    exact name_relocated h hfree hfree' hdecode hdecode' hr hr'
  case fixed =>
    intro k record record' format opcode hr hr'
    exact fixed_relocated h hfree hfree' hdecode hdecode' hr hr'
  case field =>
    intro k record record' opcode name indexed target hr hr'
    exact field_relocated h hfree hfree' hdecode hdecode' hr hr'

/-- A program behind a comment that moves up by `0x1000`, with its label in a full address field,
near the statement and as an entry point. -/
theorem relocated_copy :
    (ofLines .xe [". copy", "P START 1000", "A +LDA B", "LDA B", "B WORD 5", "END A"]).faults = [] ∧
      (ofLines .xe [". copy", "P START 2000", "A +LDA B", "LDA B", "B WORD 5", "END A"]).faults =
        [] ∧
      Relocated 1 0x1000
        (ofLines .xe [". copy", "P START 1000", "A +LDA B", "LDA B", "B WORD 5", "END A"])
        (ofLines .xe [". copy", "P START 2000", "A +LDA B", "LDA B", "B WORD 5", "END A"]) := by
  have hrestart : Layout.Restart [". copy"] "P START 1000" "P START 2000" :=
    ⟨by decide +kernel, by decide +kernel, by decide +kernel, by decide +kernel⟩
  have hdecode : Numeral.decodeAddress (Statement.ofLine "P START 1000").operand =
      .ok 0x1000 := by decide +kernel
  have hdecode' : Numeral.decodeAddress (Statement.ofLine "P START 2000").operand =
      .ok 0x2000 := by decide +kernel
  refine ⟨by decide +kernel, by decide +kernel, ?_⟩
  exact relocated hrestart (by decide +kernel) (by decide +kernel) hdecode hdecode'

end Assembly

end SicXe
