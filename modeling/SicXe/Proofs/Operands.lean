import SicXe.Proofs.Cutting
import SicXe.Proofs.Decoding
import SicXe.Proofs.Numerals

/-!
# What operands stand for

The meaning of an operand is stated on its text, apart from the way it is resolved:

* `Marked`: mark, name and ending of an operand that addresses memory; `valueOf?`: the value of its
  name. `resolveMemory_ok`: a resolved operand has these.
* `PlainReference`, `resolveMemory_plain`: a label without mark and ending always is resolved.
* `Registers`, `resolveRegisters_ok`: the two half bytes of a register operand.
* `wordValue?`, `resolve_word_ok`: the value of a word; `IsByteData`, `byteConstant?_eq_some`: the
  bytes of a byte directive.
-/

namespace SicXe

/-- The mark of a way of addressing. -/
def Addressing.mark : Addressing → Text
  | .immediate => [Operand.immediateMarker]
  | .indirect => [Operand.indirectMarker]
  | .simple | .direct => []

namespace Operand

/-! ## Labels and numbers -/

/-- The value of a name: the address of a label, or else a decimal number. -/
def valueOf? (symbols : SymbolTable) (name : Text) : Option Int :=
  match symbols.get? name with
  | some address => some address.toNat
  | none => Numeral.decimal? name

theorem toInt_ofInt_address (address : UInt32) :
    (Int64.ofInt address.toNat).toInt = address.toNat := by
  have := address.toNat_lt
  exact Int64.toInt_ofInt_of_le (by omega) (by omega)

/-! ## Marks and endings -/

/-- The parts of an operand that addresses memory: a mark, a name and, if it is indexed, an ending.
A mark at the front always counts as one, and so does an ending with a name in front of it. -/
structure Marked (text : Text) (addressing : Addressing) (name : Text) (indexed : Bool) :
    Prop where
  parts : text = addressing.mark ++ (name ++ if indexed then indexEnding else [])
  mark : addressing = .immediate ∨ addressing = .indirect ∨
    addressing = .simple ∧ text.head? ≠ some immediateMarker ∧ text.head? ≠ some indirectMarker
  ending : if indexed then name ≠ [] else ∀ front ≠ [], name ≠ front ++ indexEnding

theorem splitMarker_spec (text : Text) :
    text = (splitMarker text).1.mark ++ (splitMarker text).2 ∧
      ((splitMarker text).1 = .immediate ∨ (splitMarker text).1 = .indirect ∨
        (splitMarker text).1 = .simple ∧ text.head? ≠ some immediateMarker ∧
          text.head? ≠ some indirectMarker) := by
  cases text with
  | nil => exact ⟨rfl, .inr (.inr ⟨rfl, nofun, nofun⟩)⟩
  | cons b t =>
    by_cases him : b = immediateMarker
    · simp [splitMarker, him, Addressing.mark]
    · by_cases hin : b = indirectMarker
      · have hne : indirectMarker ≠ immediateMarker := by decide
        simp [splitMarker, hin, hne, Addressing.mark]
      · simp [splitMarker, him, hin, Addressing.mark]

theorem splitIndex_spec (t : Text) :
    t = (splitIndex t).2 ++ (if (splitIndex t).1 then indexEnding else []) ∧
      if (splitIndex t).1 then (splitIndex t).2 ≠ []
      else ∀ front ≠ [], (splitIndex t).2 ≠ front ++ indexEnding := by
  unfold splitIndex
  split
  case isTrue h =>
    obtain ⟨hlen, hend⟩ := h
    obtain ⟨front, rfl⟩ := List.isSuffixOf_iff_suffix.1 hend
    simp only [List.length_append] at hlen ⊢
    rw [Nat.add_sub_cancel, List.take_left]
    refine ⟨rfl, ?_⟩
    rintro rfl
    simp at hlen
  case isFalse h =>
    refine ⟨(List.append_nil t).symm, ?_⟩
    rintro front hne rfl
    refine h ⟨?_, List.isSuffixOf_iff_suffix.2 (List.suffix_append _ _)⟩
    have := List.length_pos_iff.2 hne
    rw [List.length_append]
    omega

/-- Every operand has its parts, and they are what the resolution cuts it into. -/
theorem marked_split (text : Text) :
    Marked text (splitMarker text).1 (splitIndex (splitMarker text).2).2
      (splitIndex (splitMarker text).2).1 := by
  obtain ⟨hparts, hmark⟩ := splitMarker_spec text
  obtain ⟨hname, hending⟩ := splitIndex_spec (splitMarker text).2
  exact ⟨by rw [← hname]; exact hparts, hmark, hending⟩

/-! ## Memory -/

theorem resolveName_ok {operand : Operand} {name : Text} {format : Format} {symbols : SymbolTable}
    (h : (resolveName operand name format symbols).failure = none) :
    ∃ value : Int64, valueOf? symbols name = some value.toInt ∧
      (resolveName operand name format symbols).operand =
        { operand with
          kind := if (symbols.get? name).isSome then .symbol else .literal
          value } := by
  unfold resolveName at h ⊢
  unfold valueOf?
  split at h
  case isTrue => simp [reject] at h
  case isFalse hne =>
    rw [if_neg hne]
    cases hs : symbols.get? name with
    | some address => exact ⟨_, congrArg some (toInt_ofInt_address address).symm, rfl⟩
    | none =>
      rw [hs] at h
      dsimp only at h ⊢
      cases hd : Numeral.decodeCount name with
      | ok value =>
        rw [hd] at h
        dsimp only at h ⊢
        split at h
        case isTrue hfit =>
          rw [if_pos hfit]
          exact ⟨value, Numeral.decodeCount_eq_ok hd, rfl⟩
        case isFalse => simp [reject] at h
      | error e =>
        rw [hd] at h
        dsimp only at h
        split at h
        · simp [reject] at h
        · simp only [resolveLabel, hs] at h
          split at h <;> simp [reject] at h

/-- **A resolved operand** that addresses memory is what its parts say. -/
theorem resolveMemory_ok {text : Text} {format : Format} {symbols : SymbolTable}
    (ht : text ≠ []) (h : (resolveMemory text format symbols).failure = none) :
    ∃ addressing name indexed value, Marked text addressing name indexed ∧
      (format = .sic → addressing = .simple) ∧ valueOf? symbols name = some value.toInt ∧
      (resolveMemory text format symbols).operand =
        { kind := if (symbols.get? name).isSome then .symbol else .literal
          value, addressing, indexed, text } := by
  unfold resolveMemory at h ⊢
  rw [if_neg ht] at h ⊢
  dsimp only at h ⊢
  split at h
  case isTrue => simp [reject] at h
  case isFalse hsic =>
    rw [if_neg hsic]
    obtain ⟨value, hvalue, hoperand⟩ := resolveName_ok h
    refine ⟨_, _, _, value, marked_split text, fun hf => ?_, hvalue, hoperand⟩
    exact Decidable.byContradiction fun hne => hsic ⟨hne, hf⟩

/-- A label without mark and ending. -/
structure PlainReference (symbols : SymbolTable) (text : Text) (address : UInt32) : Prop where
  defined : symbols.get? text = some address
  unmarked : text.head? ≠ some immediateMarker ∧ text.head? ≠ some indirectMarker
  unindexed : ∀ front ≠ [], text ≠ front ++ indexEnding

theorem splitMarker_eq_simple {text : Text} (him : text.head? ≠ some immediateMarker)
    (hin : text.head? ≠ some indirectMarker) : splitMarker text = (.simple, text) := by
  cases text with
  | nil => rfl
  | cons b t =>
    rw [List.head?_cons, ne_eq, Option.some.injEq] at him hin
    rw [splitMarker, if_neg him, if_neg hin]

theorem splitIndex_eq_false {text : Text} (h : ∀ front ≠ [], text ≠ front ++ indexEnding) :
    splitIndex text = (false, text) := by
  obtain ⟨hparts, hending⟩ := splitIndex_spec text
  cases hi : (splitIndex text).1 with
  | true =>
    rw [hi, if_pos rfl] at hparts hending
    exact absurd hparts (h _ hending)
  | false =>
    rw [hi, if_neg (by decide), List.append_nil] at hparts
    exact Prod.ext hi hparts.symm

theorem unindexed_of_splitIndex {text : Text} (h : (splitIndex text).1 = false) :
    ∀ front ≠ [], text ≠ front ++ indexEnding := by
  obtain ⟨hparts, hending⟩ := splitIndex_spec text
  rw [h, if_neg (by decide), List.append_nil] at hparts
  rw [h, if_neg (by decide), ← hparts] at hending
  exact hending

theorem resolveMemory_plain {symbols : SymbolTable} {text : Text} {address : UInt32}
    (ht : text ≠ []) (h : PlainReference symbols text address) (format : Format) :
    resolveMemory text format symbols = toSymbol { text } address := by
  unfold resolveMemory
  rw [if_neg ht, splitMarker_eq_simple h.unmarked.1 h.unmarked.2]
  dsimp only
  rw [splitIndex_eq_false h.unindexed, if_neg (by simp)]
  dsimp only
  rw [resolveName, if_neg ht, h.defined]

/-- The parts of a plain reference are the label alone. -/
theorem PlainReference.of_marked {symbols : SymbolTable} {text name : Text} {address : UInt32}
    (h : Marked text .simple name false) (hs : symbols.get? name = some address) :
    PlainReference symbols text address := by
  have hname : text = name := by simpa [Addressing.mark] using h.parts
  subst hname
  refine ⟨hs, ?_, by simpa using h.ending⟩
  simpa using h.mark

/-! ## Registers -/

/-- The half byte for a part of a register operand: the number of a register, or a count of sixteen
from the lowest one on, less the lowest, where counts are allowed. -/
def halfByte? (lowest : Option Int) (part : Text) : Option Int :=
  match register? part, lowest with
  | some number, _ => some number.toNat
  | none, some low =>
    ((Numeral.decimal? part).filter fun n => low ≤ n ∧ n < low + 16).map (· - low)
  | none, none => none

/-- The half bytes of a register operand: one register or a count from 0 to 15, or a register and,
behind a comma, another one or a count from 1 to 16. -/
inductive Registers (text : Text) : (first second : Int) → Prop
  | one {r : Int} (whole : Text.comma ∉ text) (first : halfByte? (some 0) text = some r) :
    Registers text r 0
  | two {front behind : Text} {r s : Int} (parts : text = front ++ Text.comma :: behind)
    (cut : Text.comma ∉ front ∧ Text.comma ∉ behind) (first : halfByte? none front = some r)
    (second : halfByte? (some 1) behind = some s) : Registers text r s

/-- The registers of the machine by their numbers, from 0 on. There is no register 7. -/
def registerFile : List (Option Text) :=
  [some "A", some "X", some "L", some "B", some "S", some "T", some "F", none, some "PC", some "SW"]

/-- **The number of a register** is its place in the machine. -/
theorem register?_eq_some_iff {name : Text} {number : UInt8} :
    register? name = some number ↔ registerFile[number.toNat]? = some (some name) := by
  constructor
  · intro h
    obtain ⟨entry, hfind, rfl⟩ := Option.map_eq_some_iff.1 h
    have hname : entry.1 = name := by simpa using List.find?_some hfind
    have hall : ∀ entry ∈ registers, registerFile[entry.2.toNat]? = some (some entry.1) := by decide
    rw [← hname, hall entry (List.mem_of_find?_eq_some hfind)]
  · intro h
    obtain ⟨hlt, hname⟩ := List.getElem?_eq_some_iff.1 h
    have hall : ∀ k : Fin registerFile.length, (registerFile.get k).all
        (fun name => register? name = some (UInt8.ofNat k)) = true := by decide
    have hnumber := hall ⟨number.toNat, hlt⟩
    rw [show registerFile.get ⟨number.toNat, hlt⟩ = some name from hname] at hnumber
    simpa using hnumber

theorem register?_lt {part : Text} {number : UInt8} (h : register? part = some number) :
    number.toNat < 16 := by
  obtain ⟨hlt, -⟩ := List.getElem?_eq_some_iff.1 (register?_eq_some_iff.1 h)
  exact Nat.lt_trans hlt (by decide)

theorem halfByte?_bounds {lowest : Option Int} {part : Text} {r : Int}
    (h : halfByte? lowest part = some r) : 0 ≤ r ∧ r < 16 := by
  unfold halfByte? at h
  split at h
  case h_1 number hn =>
    rw [Option.some.injEq] at h
    have := register?_lt hn
    omega
  case h_2 low hn =>
    obtain ⟨n, hfilter, rfl⟩ := Option.map_eq_some_iff.1 h
    have := (Option.filter_eq_some_iff.1 hfilter).2
    rw [decide_eq_true_eq] at this
    omega
  case h_3 => cases h

theorem Registers.bounds {text : Text} {r s : Int} (h : Registers text r s) :
    (0 ≤ r ∧ r < 16) ∧ 0 ≤ s ∧ s < 16 := by
  cases h with
  | one _ first => exact ⟨halfByte?_bounds first, by decide⟩
  | two _ _ first second => exact ⟨halfByte?_bounds first, halfByte?_bounds second⟩

theorem registerPart_ok {counts : Option (Int64 × Int64)}
    (hcounts : ∀ low high, counts = some (low, high) → high.toInt = low.toInt + 15) {part : Text}
    {value : Int64} (h : registerPart counts part = .ok value) :
    halfByte? (counts.map (·.1.toInt)) part = some value.toInt := by
  unfold registerPart at h
  unfold halfByte?
  split at h
  case h_1 number hn =>
    rw [hn]
    cases h
    have := number.toNat_lt
    exact congrArg some (Int64.toInt_ofInt_of_le (by omega) (by omega)).symm
  case h_2 hn =>
    rw [hn]
    split at h
    case h_1 => cases h
    case h_2 n hd =>
      cases counts with
      | none => cases h
      | some range =>
        obtain ⟨low, high⟩ := range
        have hhigh := hcounts low high rfl
        dsimp only [Option.map_some] at h ⊢
        split at h
        case isTrue hrange =>
          cases h
          rw [Int64.le_iff_toInt_le, Int64.le_iff_toInt_le, hhigh] at hrange
          rw [Numeral.decodeCount_eq_ok hd, Option.filter_some, if_pos (by simp; omega),
            Option.map_some, Int64.toInt_sub, Int.bmod_eq_of_le (by omega) (by omega)]
        case isFalse => cases h

/-- **A resolved register operand** has its two half bytes. -/
theorem resolveRegisters_ok {text : Text}
    (h : (resolveRegisters { text }).failure = none) :
    ∃ value second : Int64, Registers text value.toInt second.toInt ∧
      ((resolveRegisters { text }).operand = { kind := .register, value, text } ∧ second = 0 ∨
        (resolveRegisters { text }).operand = { kind := .registerPair, value, second, text }) := by
  unfold resolveRegisters at h ⊢
  dsimp only at h ⊢
  split at h
  case h_1 => simp [reject] at h
  case h_2 part hne hsplit =>
    split at h
    case h_1 => simp [reject] at h
    case h_2 value hpart =>
      obtain ⟨hmem, ⟨rfl, -⟩ | ⟨behind, -, hnil⟩⟩ := Text.split_eq_cons hsplit
      · refine ⟨value, 0, .one hmem (registerPart_ok ?_ hpart), .inl ⟨rfl, rfl⟩⟩
        rintro low high ⟨⟩
        rfl
      · exact absurd hnil.symm (Text.split_ne_nil _ _)
  case h_3 front last hne hsplit =>
    split at h
    case h_1 => simp [reject] at h
    case h_2 value hfirst =>
      split at h
      case h_1 => simp [reject] at h
      case h_2 second hsecond =>
        obtain ⟨hfront, ⟨-, hnil⟩ | ⟨behind, rfl, hrest⟩⟩ := Text.split_eq_cons hsplit
        · cases hnil
        obtain ⟨hlast, ⟨rfl, -⟩ | ⟨_, -, hnil⟩⟩ := Text.split_eq_cons hrest.symm
        · refine ⟨value, second, .two rfl ⟨hfront, hlast⟩ (registerPart_ok (by simp) hfirst)
            (registerPart_ok ?_ hsecond), .inr rfl⟩
          rintro low high ⟨⟩
          rfl
        · exact absurd hnil.symm (Text.split_ne_nil _ _)
  case h_4 => simp [reject] at h

/-! ## Data -/

/-- The value of a word: a constant of at most three bytes, or else a decimal number, or else the
address of a label. -/
def wordValue? (symbols : SymbolTable) (text : Text) : Option Int :=
  (((Constant.decode? text).filter (·.length ≤ 3)).map fun data => (bigEndian data : Int)).or
    ((Numeral.decimal? text).or ((symbols.get? text).map fun address => (address.toNat : Int)))

/-- The bytes of a byte directive: a constant, or else a decimal number that fits in a byte with or
without a sign. -/
inductive IsByteData (text : Text) : (data : Text) → Prop
  | constant {data : Text} (decoded : Constant.decode? text = some data) : IsByteData text data
  | number {b : UInt8} {n : Int} (decimal : Numeral.decimal? text = some n)
    (range : -128 ≤ n ∧ n ≤ 255) (low : (b.toNat : Int) = n % 256) : IsByteData text [b]

/-- A text in the form of a constant is no number. -/
theorem decimal?_of_split? {text : Text} {parts : Constant.Kind × Text}
    (h : Constant.split? text = some parts) : Numeral.decimal? text = none := by
  obtain ⟨kind, content⟩ := parts
  rw [Constant.split?_eq_some_iff.1 h]
  cases kind <;> rfl

theorem wordConstant?_eq_some {text : Text} {value : Int64} (h : wordConstant? text = some value)
    (symbols : SymbolTable) : wordValue? symbols text = some value.toInt := by
  unfold wordConstant? at h
  cases hs : Constant.split? text with
  | none =>
    rw [hs] at h
    have hd : Constant.decode? text = none := by rw [Constant.decode?, hs]
    have hv : Numeral.decimal? text = some value.toInt := by
      rw [← Numeral.decodeCount_eq]
      exact congrArg (Option.map Int64.toInt) h
    rw [wordValue?, hd, hv]
    rfl
  | some parts =>
    rw [hs] at h
    dsimp only at h
    split at h
    case h_2 => cases h
    case h_1 data hd =>
      split at h
      case isFalse => cases h
      case isTrue hlen =>
        rw [Option.some.injEq] at h
        subst h
        rw [wordValue?, hd, toInt_ofInt_address, Word.toNat_ofBytes_of_length_le (by omega),
          Option.filter_some, if_pos (by simpa using hlen)]
        rfl

theorem wordConstant?_eq_none {text : Text} (h : wordConstant? text = none)
    (symbols : SymbolTable) :
    wordValue? symbols text = (symbols.get? text).map fun address => (address.toNat : Int) := by
  have hnumber : Numeral.decimal? text = none := by
    cases hs : Constant.split? text with
    | some parts => exact decimal?_of_split? hs
    | none =>
      rw [wordConstant?, hs] at h
      rw [← Numeral.decodeCount_eq]
      exact congrArg (Option.map Int64.toInt) h
  have hconstant : (Constant.decode? text).filter (·.length ≤ 3) = none := by
    cases hd : Constant.decode? text with
    | none => rfl
    | some data =>
      cases hs : Constant.split? text with
      | none => simp [Constant.decode?, hs] at hd
      | some parts =>
        rw [wordConstant?, hs, hd] at h
        dsimp only at h
        split at h
        case isTrue => cases h
        case isFalse hlen => rw [Option.filter_some, if_neg (by simpa using hlen)]
  rw [wordValue?, hnumber, hconstant]
  rfl

/-- **A resolved word** has its value. -/
theorem resolve_word_ok {text : Text} {symbols : SymbolTable}
    (h : (resolve text .word symbols).failure = none) :
    ∃ value : Int64, wordValue? symbols text = some value.toInt ∧
      (resolve text .word symbols).operand.value = value ∧
      (resolve text .word symbols).operand.kind ≠ .unresolved := by
  unfold resolve at h ⊢
  dsimp only at h ⊢
  cases hw : wordConstant? text with
  | some value => exact ⟨value, wordConstant?_eq_some hw symbols, rfl, nofun⟩
  | none =>
    rw [hw] at h
    dsimp only at h ⊢
    rw [wordConstant?_eq_none hw]
    unfold resolveLabel at h ⊢
    cases hs : symbols.get? text with
    | some address => exact ⟨_, congrArg some (toInt_ofInt_address address).symm, rfl, nofun⟩
    | none =>
      rw [hs] at h
      dsimp only at h
      split at h <;> simp [reject] at h

theorem byteConstant?_eq_some {text data : Text} (h : byteConstant? text = some data) :
    IsByteData text data := by
  unfold byteConstant? at h
  split at h
  case h_1 => exact .constant h
  case h_2 =>
    split at h
    case h_2 => cases h
    case h_1 value hd =>
      split at h
      case isTrue => cases h
      case isFalse hrange =>
        rw [Option.some.injEq] at h
        subst h
        rw [not_or, Int64.not_lt, Int64.not_lt, Int64.le_iff_toInt_le, Int64.le_iff_toInt_le]
          at hrange
        refine .number (Numeral.decodeCount_eq_ok hd) hrange ?_
        rw [Word.toNat_lowByte]

end Operand

end SicXe
