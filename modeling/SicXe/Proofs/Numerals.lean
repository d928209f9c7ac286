import SicXe.Numeral.Decode
import SicXe.Proofs.Constants

/-!
# Numerals and their values

* `valueFrom?`: the value of a row of digits, by Horner's rule and without a bound.
* `scan_eq_ok`: the scan gives the value of a row of digits that is not empty, if it is in range.
* `decimal?`, `decodeCount_eq`: a count is a decimal number with an optional sign in 32 bits.
* `decodeAddress_hex`: an address that was written in hexadecimal is read back.
* `decodeAddress_lt`: an address is below `16` to the length of its field.
* `length_hex`: a number below `16 ^ width` is written with `width` digits.
* `mem_decimal`, `mem_hex`: which bytes a number is written with.
-/

namespace SicXe.Numeral

/-! ## The value of digits -/

/-- The value of digits behind the digits with value `value`, if all are digits of the base. -/
def valueFrom? (base : Nat) : (value : Nat) → Text → Option Nat
  | value, [] => some value
  | value, b :: t => (digit? base b).bind fun d => valueFrom? base (value * base + d) t

theorem le_of_valueFrom? {base : Nat} (hb : 0 < base) : ∀ {t : Text} {value n : Nat},
    valueFrom? base value t = some n → value ≤ n
  | [], value, n, h => by
    cases h
    exact Nat.le_refl _
  | b :: t, value, n, h => by
    obtain ⟨d, -, h⟩ := Option.bind_eq_some_iff.1 h
    have := le_of_valueFrom? hb h
    have : value * 1 ≤ value * base := Nat.mul_le_mul_left value hb
    omega

theorem scanFrom_eq_ok {base : Nat} (hb : 0 < base) : ∀ {t : Text} {value n : Nat},
    value ≤ scanLimit →
    (scanFrom base value t = .ok n ↔ valueFrom? base value t = some n ∧ n ≤ scanLimit)
  | [], value, n, h => by
    simp only [scanFrom, valueFrom?, Except.ok.injEq, Option.some.injEq]
    exact ⟨fun hv => ⟨hv, hv ▸ h⟩, And.left⟩
  | b :: t, value, n, h => by
    rw [scanFrom, valueFrom?]
    cases digit? base b with
    | none => simp
    | some d =>
      rw [Option.bind_some]
      by_cases hlt : scanLimit < value * base + d
      · simp only [hlt, ↓reduceIte, reduceCtorEq, false_iff, not_and, Nat.not_le]
        exact fun hv => Nat.lt_of_lt_of_le hlt (le_of_valueFrom? hb hv)
      · simp only [hlt, ↓reduceIte]
        exact scanFrom_eq_ok hb (Nat.le_of_not_lt hlt)

theorem scan_eq_ok {base : Nat} (hb : 0 < base) {t : Text} {n : Nat} :
    scan base t = .ok n ↔ t ≠ [] ∧ valueFrom? base 0 t = some n ∧ n ≤ scanLimit := by
  by_cases ht : t = []
  · simp [scan, ht]
  · simp only [scan, ht, ↓reduceIte, ne_eq, not_false_eq_true, true_and]
    exact scanFrom_eq_ok hb (Nat.zero_le _)

/-! ## Counts -/

/-- The value of a decimal number of 32 bits, with an optional sign in front. -/
def decimal? (t : Text) : Option Int :=
  let negative := t.head? = some 0x2D
  let digits := if negative ∨ t.head? = some 0x2B then t.tail else t
  if digits = [] then none
  else
    ((valueFrom? 10 0 digits).map fun (n : Nat) => if negative then -(n : Int) else n).filter
      fun value => -2 ^ 31 ≤ value ∧ value < 2 ^ 31

theorem splitSign_eq (t : Text) :
    splitSign t = (decide (t.head? = some 0x2D),
      if t.head? = some 0x2D ∨ t.head? = some 0x2B then t.tail else t) := by
  cases t with
  | nil => rfl
  | cons b t =>
    simp only [splitSign, List.head?_cons, Option.some.injEq, List.tail_cons]
    by_cases h : b = 0x2D
    · simp [h]
    · by_cases h' : b = 0x2B <;> simp [h, h']

/-- **A count is a decimal number of 32 bits with an optional sign.** -/
theorem decodeCount_eq (t : Text) : (decodeCount t).toOption.map Int64.toInt = decimal? t := by
  rw [decodeCount, splitSign_eq, decimal?]
  dsimp only
  generalize (if t.head? = some 0x2D ∨ t.head? = some 0x2B then t.tail else t) = digits
  cases hs : scan 10 digits with
  | error flaw =>
    by_cases hd : digits = []
    · simp [hd, Except.toOption]
    rw [if_neg hd]
    cases hv : valueFrom? 10 0 digits with
    | none => rfl
    | some n =>
      have hn : scanLimit < n := by
        refine Nat.lt_of_not_le fun hn => ?_
        simp [(scan_eq_ok (by decide)).2 ⟨hd, hv, hn⟩] at hs
      rw [Option.map_some, Option.filter_some, if_neg]
      · rfl
      · simp only [scanLimit] at hn
        simp only [decide_eq_true_eq]
        split <;> omega
  | ok n =>
    obtain ⟨hd, hv, -⟩ := (scan_eq_ok (by decide)).1 hs
    have hround (value : Int) (h : -2 ^ 31 ≤ value ∧ value < 2 ^ 31) :
        (Int64.ofInt value).toInt = value := Int64.toInt_ofInt_of_le (by omega) (by omega)
    rw [if_neg hd, hv, Option.map_some, Option.filter_some]
    by_cases hneg : t.head? = some 0x2D
    · simp only [hneg, decide_true, ↓reduceIte]
      by_cases hlarge : 0x80000000 < n
      · rw [if_pos hlarge, if_neg (by simp; omega)]
        rfl
      · rw [if_neg hlarge, if_pos (by simp; omega)]
        exact congrArg some (hround _ (by omega))
    · simp only [hneg, decide_false, Bool.false_eq_true, ↓reduceIte]
      by_cases hlarge : 0x80000000 ≤ n
      · rw [if_pos hlarge, if_neg (by simp; omega)]
        rfl
      · rw [if_neg hlarge, if_pos (by simp; omega)]
        exact congrArg some (hround _ (by omega))

theorem decodeCount_eq_ok {t : Text} {value : Int64} (h : decodeCount t = .ok value) :
    decimal? t = some value.toInt := by
  rw [← decodeCount_eq, h]
  rfl

theorem decodeCount_eq_error {t : Text} {e : NumeralError} (h : decodeCount t = .error e) :
    decimal? t = none := by
  rw [← decodeCount_eq, h]
  rfl

theorem decimal?_bounds {t : Text} {value : Int} (h : decimal? t = some value) :
    -2 ^ 31 ≤ value ∧ value < 2 ^ 31 := by
  unfold decimal? at h
  dsimp only at h
  generalize (if t.head? = some 0x2D ∨ t.head? = some 0x2B then t.tail else t) = digits at h
  by_cases hd : digits = []
  · simp [hd] at h
  · rw [if_neg hd] at h
    simpa using (Option.filter_eq_some_iff.1 h).2

/-! ## Hexadecimal -/

/-- An address is a row of digits behind its marker. -/
theorem decodeAddress_eq_ok {t : Text} {n : UInt32} : decodeAddress t = .ok n ↔
    ∃ digits m, afterMarker t = .ok digits ∧ scan 16 digits = .ok m ∧ n = UInt32.ofNat m := by
  unfold decodeAddress
  cases hmarker : afterMarker t with
  | error e => simp
  | ok digits => cases hscan : scan 16 digits <;> simp [hscan, eq_comm]

/-- The digits of a number lead the scan from zero to that number. -/
theorem valueFrom?_digitsBefore : ∀ {fuel n : Nat} (low : Text), n < fuel →
    valueFrom? 16 0 (digitsBefore upperDigit 16 fuel n low) = valueFrom? 16 n low
  | fuel + 1, n, low, h => by
    rw [digitsBefore]
    split
    case isTrue hn => simp [valueFrom?, digit?_upperDigit hn]
    case isFalse hn =>
      rw [valueFrom?_digitsBefore _ (by omega), valueFrom?, digit?_upperDigit (by omega),
        Option.bind_some, Nat.mul_comm, Nat.div_add_mod]

theorem valueFrom?_zeros (t : Text) : ∀ count : Nat,
    valueFrom? 16 0 (List.replicate count 0x30 ++ t) = valueFrom? 16 0 t
  | 0 => rfl
  | count + 1 => by
    rw [List.replicate_succ, List.cons_append, valueFrom?,
      show digit? 16 0x30 = some 0 by decide, Option.bind_some]
    exact valueFrom?_zeros t count

theorem valueFrom?_hex (width n : Nat) : valueFrom? 16 0 (hex width n) = some n := by
  rw [hex, zeroPad, valueFrom?_zeros, digits, valueFrom?_digitsBefore _ (by omega)]
  rfl

theorem digitsBefore_ne_nil {digit : Nat → UInt8} {base : Nat} :
    ∀ {fuel n : Nat} {low : Text}, fuel ≠ 0 ∨ low ≠ [] →
      digitsBefore digit base fuel n low ≠ []
  | 0, _, low, h => by simpa [digitsBefore] using h
  | fuel + 1, n, low, _ => by
    rw [digitsBefore]
    split
    · exact List.cons_ne_nil _ _
    · exact digitsBefore_ne_nil (.inr (List.cons_ne_nil _ _))

/-- The digits of a number in some base have its value by Horner's rule. -/
theorem foldl_digitsBefore {digit : Nat → UInt8} {value : UInt8 → Nat} {base : Nat}
    (hb : 1 < base) (hvalue : ∀ d < base, value (digit d) = d) :
    ∀ {fuel n : Nat} (low : Text), n < fuel →
      (digitsBefore digit base fuel n low).foldl (fun n b => n * base + value b) 0 =
        low.foldl (fun n b => n * base + value b) n
  | fuel + 1, n, low, h => by
    rw [digitsBefore]
    split
    case isTrue hn => rw [List.foldl_cons, hvalue n hn, Nat.zero_mul, Nat.zero_add]
    case isFalse hn =>
      have hless : n / base < n := Nat.div_lt_self (by omega) hb
      rw [foldl_digitsBefore hb hvalue _ (by omega), List.foldl_cons,
        hvalue _ (Nat.mod_lt _ (by omega)), Nat.mul_comm, Nat.div_add_mod]

theorem hex_ne_nil (width n : Nat) : hex width n ≠ [] := by
  simp only [hex, zeroPad, ne_eq, List.append_eq_nil_iff, not_and]
  exact fun _ => digitsBefore_ne_nil (.inl (Nat.succ_ne_zero n))

/-- Every byte of a row of digits is a digit. -/
theorem digit?_of_valueFrom? {base : Nat} : ∀ {t : Text} {value n : Nat},
    valueFrom? base value t = some n → ∀ b ∈ t, (digit? base b).isSome = true
  | [], _, _, _ => by simp
  | b :: t, value, n, h => by
    obtain ⟨d, hd, h⟩ := Option.bind_eq_some_iff.1 h
    rw [List.forall_mem_cons]
    exact ⟨by rw [hd]; rfl, digit?_of_valueFrom? h⟩

theorem isHexDigit_of_mem_hex {width n : Nat} {b : UInt8} (h : b ∈ hex width n) :
    (digit? 16 b).isSome = true :=
  digit?_of_valueFrom? (valueFrom?_hex width n) b h

/-- **An address is read back from its hexadecimal digits.** -/
theorem decodeAddress_hex (width : Nat) (n : UInt32) :
    decodeAddress (hex width n.toNat) = .ok n := by
  have hmark : afterMarker (hex width n.toNat) = .ok (hex width n.toNat) := by
    have : (hex width n.toNat).findIdx? isMarker = none := by
      rw [List.findIdx?_eq_none_iff]
      intro b hb
      have hd := isHexDigit_of_mem_hex hb
      cases hm : isMarker b with
      | false => rfl
      | true =>
        simp only [isMarker, Bool.or_eq_true, beq_iff_eq] at hm
        rcases hm with rfl | rfl <;> exact absurd hd (by decide)
    rw [afterMarker, this]
  have hscan : scan 16 (hex width n.toNat) = .ok n.toNat := by
    have := n.toNat_lt
    exact (scan_eq_ok (by decide)).2
      ⟨hex_ne_nil _ _, valueFrom?_hex _ _, by simp only [scanLimit]; omega⟩
  exact decodeAddress_eq_ok.2 ⟨_, _, hmark, hscan, UInt32.ofNat_toNat.symm⟩

/-! ## The size of a value -/

theorem digit?_lt {base d : Nat} {b : UInt8} (h : digit? base b = some d) : d < base := by
  unfold digit? at h
  split at h
  · split at h
    · cases h
      assumption
    · cases h
  · cases h

theorem valueFrom?_lt {base : Nat} : ∀ {t : Text} {value n : Nat},
    valueFrom? base value t = some n → n < (value + 1) * base ^ t.length
  | [], value, n, h => by
    cases h
    simp
  | b :: t, value, n, h => by
    obtain ⟨d, hd, h⟩ := Option.bind_eq_some_iff.1 h
    have hdigit := digit?_lt hd
    calc n < (value * base + d + 1) * base ^ t.length := valueFrom?_lt h
      _ ≤ ((value + 1) * base) * base ^ t.length :=
        Nat.mul_le_mul_right _ (by rw [Nat.add_mul]; omega)
      _ = (value + 1) * base ^ (b :: t).length := by
        rw [List.length_cons, Nat.pow_succ', Nat.mul_assoc]

theorem length_afterMarker {t digits : Text} (h : afterMarker t = .ok digits) :
    digits.length ≤ t.length := by
  unfold afterMarker at h
  split at h
  · cases h
    exact Nat.le_refl _
  · cases h
    exact List.length_drop ▸ Nat.sub_le _ _
  · split at h
    · cases h
      exact List.length_drop ▸ Nat.sub_le _ _
    · cases h
  · cases h

/-- **An address has no more digits than its field has bytes.** -/
theorem decodeAddress_lt {t : Text} {n : UInt32} (h : decodeAddress t = .ok n) :
    n.toNat < 16 ^ t.length := by
  obtain ⟨digits, m, hmarker, hscan, rfl⟩ := decodeAddress_eq_ok.1 h
  obtain ⟨-, hvalue, hlimit⟩ := (scan_eq_ok (by decide)).1 hscan
  have hlt := valueFrom?_lt hvalue
  rw [Nat.zero_add, Nat.one_mul] at hlt
  rw [scanLimit] at hlimit
  rw [UInt32.toNat_ofNat', Nat.mod_eq_of_lt (by omega)]
  exact Nat.lt_of_lt_of_le hlt (Nat.pow_le_pow_right (by decide) (length_afterMarker hmarker))

/-! ## The number of digits -/

theorem length_digitsBefore_le (digit : Nat → UInt8) {base : Nat} :
    ∀ (fuel : Nat) {n width : Nat} (low : Text), n < base ^ (width + 1) →
      (digitsBefore digit base fuel n low).length ≤ width + 1 + low.length
  | 0, _, _, low, _ => by simp [digitsBefore]
  | fuel + 1, n, width, low, h => by
    rw [digitsBefore]
    split
    case isTrue => simp only [List.length_cons]; omega
    case isFalse hn =>
      cases width with
      | zero => exact absurd (by simpa using h) hn
      | succ width =>
        have hdiv : n / base < base ^ (width + 1) :=
          Nat.div_lt_of_lt_mul (by rwa [← Nat.pow_succ'])
        have := length_digitsBefore_le digit fuel (digit (n % base) :: low) hdiv
        simp only [List.length_cons] at this
        omega

theorem length_hex_le {width n bound : Nat} (h : n < 16 ^ (bound + 1)) (hw : width ≤ bound + 1) :
    (hex width n).length ≤ bound + 1 := by
  have := length_digitsBefore_le upperDigit (n + 1) [] h
  simp only [hex, zeroPad, digits, List.length_append, List.length_replicate]
  simp only [List.length_nil] at this
  omega

/-- **A number below `16 ^ width` is written with `width` digits.** -/
theorem length_hex {width n : Nat} (h : n < 16 ^ (width + 1)) :
    (hex (width + 1) n).length = width + 1 := by
  refine Nat.le_antisymm (length_hex_le h (Nat.le_refl _)) ?_
  simp only [hex, zeroPad, List.length_append, List.length_replicate]
  omega

/-! ## The digits of a number -/

theorem mem_digitsBefore {digit : Nat → UInt8} {base : Nat} (hb : 0 < base) {b : UInt8} :
    ∀ {fuel n : Nat} {low : Text}, b ∈ digitsBefore digit base fuel n low →
      b ∈ low ∨ ∃ d < base, b = digit d
  | 0, _, _, h => .inl h
  | fuel + 1, n, low, h => by
    rw [digitsBefore] at h
    split at h
    case isTrue hn =>
      rcases List.mem_cons.1 h with rfl | h
      · exact .inr ⟨n, hn, rfl⟩
      · exact .inl h
    case isFalse =>
      rcases mem_digitsBefore hb h with h | h
      · rcases List.mem_cons.1 h with rfl | h
        · exact .inr ⟨n % base, Nat.mod_lt n hb, rfl⟩
        · exact .inl h
      · exact .inr h

theorem mem_digits {digit : Nat → UInt8} {base n : Nat} (hb : 0 < base) {b : UInt8}
    (h : b ∈ digits digit base n) : ∃ d < base, b = digit d := by
  rcases mem_digitsBefore hb h with h | h
  · cases h
  · exact h

/-- A decimal number is written with decimal digits. -/
theorem mem_decimal {n : Nat} {b : UInt8} (h : b ∈ decimal n) :
    0x30 ≤ b.toNat ∧ b.toNat ≤ 0x39 := by
  obtain ⟨d, hd, rfl⟩ := mem_digits (by decide) h
  have hall : ∀ d < 10, 0x30 ≤ (upperDigit d).toNat ∧ (upperDigit d).toNat ≤ 0x39 := by decide
  exact hall d hd

/-- A hexadecimal number is written with digits in upper case. -/
theorem mem_hex {width n : Nat} {b : UInt8} (h : b ∈ hex width n) :
    ∃ d < 16, b = upperDigit d := by
  rw [hex, zeroPad, List.mem_append] at h
  rcases h with h | h
  · exact ⟨0, by decide, List.eq_of_mem_replicate h⟩
  · exact mem_digits (by decide) h

end SicXe.Numeral
