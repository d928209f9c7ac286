import SicXe.Proofs.ObjectFormat

/-!
# Numerals and constants, read with checked accesses

Each access by position is checked here, and gives `none` out of bounds: a slice or a byte of a
field, the quotes of a constant and what stands between them, two digits at a time.

* `decodeAddress_eq`, `decodeConstant_eq`: no access is out of bounds, and the result is the same.
-/

namespace SicXe

namespace Checked

open Machine (columns)

/-- The bytes from one position up to another, if both are in the text. -/
def slice (t : Text) (low high : Nat) : Option Text :=
  if low ≤ high ∧ high ≤ t.length then some (columns t low high) else none

theorem slice_eq {t : Text} {low high : Nat} (hlow : low ≤ high) (hhigh : high ≤ t.length) :
    slice t low high = some (columns t low high) :=
  if_pos ⟨hlow, hhigh⟩

theorem slice_drop {t : Text} {low : Nat} (h : low ≤ t.length) :
    slice t low t.length = some (t.drop low) := by
  rw [slice_eq h (Nat.le_refl _), columns, List.take_of_length_le (by rw [List.length_drop])]

/-! ## Fields -/

/-- The text behind the marker of a hexadecimal numeral. -/
def afterMarker (t : Text) : Option (Except NumeralError Text) :=
  match t.findIdx? Numeral.isMarker with
  | none => some (.ok t)
  | some 0 => do return .ok (← slice t 1 t.length)
  | some 1 => do
    if (← t[0]?) = 0x30 then return .ok (← slice t 2 t.length)
    else return .error .misplacedMarker
  | some _ => some (.error .misplacedMarker)

/-- The value of an address. -/
def decodeAddress (t : Text) : Option (Except NumeralError UInt32) := do
  match ← afterMarker t with
  | .error e => return .error e
  | .ok digits =>
    match Numeral.scan 16 digits with
    | .error flaw => return .error (flaw.error .address digits)
    | .ok n => return .ok (UInt32.ofNat n)

theorem afterMarker_eq (t : Text) : afterMarker t = some (Numeral.afterMarker t) := by
  unfold afterMarker Numeral.afterMarker
  cases h : t.findIdx? Numeral.isMarker with
  | none => rfl
  | some i =>
    have hi : i < t.length := (List.findIdx?_eq_some_iff_findIdx_eq.1 h).1
    match i, hi with
    | 0, hi =>
      rw [slice_drop hi]
      rfl
    | 1, hi =>
      rw [slice_drop hi]
      cases t with
      | nil => cases hi
      | cons b t => by_cases hb : b = 0x30 <;> simp [hb]
    | _ + 2, _ => rfl

theorem decodeAddress_eq (t : Text) : decodeAddress t = some (Numeral.decodeAddress t) := by
  unfold decodeAddress Numeral.decodeAddress
  rw [afterMarker_eq]
  cases Numeral.afterMarker t with
  | error e => rfl
  | ok digits =>
    dsimp only [Option.bind_eq_bind, Option.bind_some]
    cases Numeral.scan 16 digits <;> rfl

/-! ## Constants -/

/-- The bytes of the pairs of digits from one on, so many of them. -/
def pairs (content : Text) : (i count : Nat) → Option (Option Text)
  | _, 0 => some (some [])
  | i, count + 1 => do
    match Numeral.scan 16 (← slice content (2 * i) (2 * i + 2)) with
    | .error _ => return none
    | .ok n => return (← pairs content (i + 1) count).map (UInt8.ofNat n :: ·)

/-- Digits with a zero in front if their number is odd. -/
def padded (content : Text) : Text :=
  if content.length % 2 = 1 then 0x30 :: content else content

/-- The bytes of a constant. -/
def decodeConstant (t : Text) : Option (Option Text) := do
  if t.length < 3 then return none
  if (← t[1]?) ≠ Text.apostrophe ∨ (← t[t.length - 1]?) ≠ Text.apostrophe then return none
  match Constant.Kind.ofLetter? (← t[0]?) with
  | none => return none
  | some kind =>
    let content ← slice t 2 (t.length - 1)
    if content = [] then return none
    match kind with
    | .characters => return Constant.characterContent? content
    | .hexadecimal => pairs (padded content) 0 ((padded content).length / 2)

theorem scan_pair {a b : UInt8} {n : Nat} : Numeral.scan 16 [a, b] = .ok n ↔
    ∃ h l, Numeral.digit? 16 a = some h ∧ Numeral.digit? 16 b = some l ∧ n = h * 16 + l := by
  rw [Numeral.scan_eq_ok (by decide)]
  constructor
  · rintro ⟨-, hvalue, -⟩
    obtain ⟨h, hh, hvalue⟩ := Option.bind_eq_some_iff.1 hvalue
    obtain ⟨l, hl, hvalue⟩ := Option.bind_eq_some_iff.1 hvalue
    cases hvalue
    exact ⟨h, l, hh, hl, by omega⟩
  · rintro ⟨h, l, hh, hl, rfl⟩
    have hhlt := Numeral.digit?_lt hh
    have hllt := Numeral.digit?_lt hl
    refine ⟨List.cons_ne_nil _ _, ?_, ?_⟩
    · simp [Numeral.valueFrom?, hh, hl]
    · rw [Numeral.scanLimit]
      omega

/-- **Pair by pair**, an even number of digits is read without leaving it. -/
theorem pairs_eq {content : Text} : ∀ {count i : Nat}, content.length = 2 * (i + count) →
    ∃ result, pairs content i count = some result ∧
      ∀ data, result = some data ↔ Constant.HexPairs (content.drop (2 * i)) data
  | 0, i, h => by
    refine ⟨some [], rfl, fun data => ?_⟩
    rw [List.drop_of_length_le (by omega)]
    constructor
    · rintro ⟨⟩
      exact .nil
    · rintro ⟨⟩
      rfl
  | count + 1, i, h => by
    obtain ⟨rest, hrest, hdata⟩ := @pairs_eq content count (i + 1) (by omega)
    have hfirst : 2 * i < content.length := by omega
    have hsecond : 2 * i + 1 < content.length := by omega
    have hdrop : content.drop (2 * i) =
        content[2 * i] :: content[2 * i + 1] :: content.drop (2 * (i + 1)) := by
      rw [List.drop_eq_getElem_cons hfirst, List.drop_eq_getElem_cons hsecond]
      rfl
    have hslice : slice content (2 * i) (2 * i + 2) =
        some [content[2 * i], content[2 * i + 1]] := by
      rw [slice_eq (by omega) (by omega), columns, hdrop, Nat.add_sub_cancel_left]
      rfl
    rw [hdrop, pairs, hslice, Option.bind_eq_bind, Option.bind_some]
    cases hscan : Numeral.scan 16 [content[2 * i], content[2 * i + 1]] with
    | error flaw =>
      refine ⟨none, rfl, fun data => ?_⟩
      rw [iff_false_left (Option.some_ne_none data).symm]
      intro hpairs
      cases hpairs with
      | cons hhigh hlow _ _ =>
        rw [scan_pair.2 ⟨_, _, hhigh, hlow, rfl⟩] at hscan
        cases hscan
    | ok n =>
      obtain ⟨h, l, hhigh, hlow, hn⟩ := scan_pair.1 hscan
      have hhlt := Numeral.digit?_lt hhigh
      have hllt := Numeral.digit?_lt hlow
      have hb : (UInt8.ofNat n).toNat = h * 16 + l := by
        rw [UInt8.toNat_ofNat', hn, Nat.mod_eq_of_lt (by omega)]
      refine ⟨rest.map (UInt8.ofNat n :: ·), by rw [hrest]; rfl, fun data => ?_⟩
      rw [Option.map_eq_some_iff]
      constructor
      · rintro ⟨behind, hbehind, rfl⟩
        exact .cons hhigh hlow hb ((hdata behind).1 hbehind)
      · intro hpairs
        cases hpairs with
        | @cons _ _ b h' l' _ behind hhigh' hlow' hb' hbehind =>
          cases hhigh.symm.trans hhigh'
          cases hlow.symm.trans hlow'
          refine ⟨behind, (hdata behind).2 hbehind, ?_⟩
          rw [UInt8.toNat_inj.1 (hb.trans hb'.symm)]

theorem hexContent?_zero_cons {content : Text} (h : content.length % 2 = 1) :
    Constant.hexContent? (0x30 :: content) = Constant.hexContent? content := by
  rw [Constant.hexContent?_eq, Constant.hexContent?_eq, List.foldr_cons]
  cases hrow : content.foldr Constant.pushDigit (some ⟨none, []⟩) with
  | none => rfl
  | some row =>
    obtain ⟨waiting, bytes⟩ := row
    have hlength := Constant.length_foldr_pushDigit content hrow
    cases waiting with
    | none =>
      simp only [Option.toList_none, List.length_nil] at hlength
      omega
    | some low =>
      have hzero : Numeral.digit? 16 0x30 = some 0 := by decide
      simp [Constant.pushDigit, hzero, Constant.HexRow.push, Constant.HexRow.close]

/-- Padded digits are even in number and stand for the same bytes. -/
theorem padded_spec {content : Text} (hne : content ≠ []) :
    padded content ≠ [] ∧ (padded content).length % 2 = 0 ∧
      Constant.content? .hexadecimal (padded content) =
        Constant.content? .hexadecimal content := by
  unfold padded
  split
  case isTrue hodd =>
    refine ⟨List.cons_ne_nil _ _, ?_, ?_⟩
    · rw [List.length_cons]
      omega
    · rw [Constant.content?, Constant.content?, if_neg (List.cons_ne_nil _ _), if_neg hne]
      exact hexContent?_zero_cons hodd
  case isFalse heven => exact ⟨hne, by omega, rfl⟩

/-- Padded digits are the pairs that a content is read by. -/
theorem hexPairs_padded_iff {content data : Text} (hne : content ≠ []) :
    Constant.HexPairs (padded content) data ↔
      Constant.content? .hexadecimal content = some data := by
  obtain ⟨hpne, heven, hcontent⟩ := padded_spec hne
  rw [← hcontent]
  constructor
  · intro h
    have hlength := h.length
    have hpos := List.length_pos_iff.2 hpne
    exact h.content? (List.length_pos_iff.1 (by omega))
  · intro h
    exact Constant.hexPairs_of_content? h (show _ = 2 * ((padded content).length / 2) by omega)

theorem pairs_padded {content : Text} (hne : content ≠ []) :
    pairs (padded content) 0 ((padded content).length / 2) =
      some (Constant.content? .hexadecimal content) := by
  have heven := (padded_spec hne).2.1
  obtain ⟨result, hresult, hdata⟩ :=
    @pairs_eq (padded content) ((padded content).length / 2) 0 (by omega)
  rw [hresult]
  refine congrArg some (Option.ext fun data => ?_)
  rw [hdata, Nat.mul_zero, List.drop_zero, hexPairs_padded_iff hne]

/-- **Decoding a constant stays inside it.** -/
theorem decodeConstant_eq (t : Text) : decodeConstant t = some (Constant.decode? t) := by
  unfold decodeConstant
  match t with
  | [] => rfl
  | [_] => rfl
  | [letter, quote] => simp [Constant.decode?, Constant.split?]
  | letter :: quote :: b :: t =>
    obtain ⟨last, hgetLast⟩ : ∃ last, (b :: t).getLast? = some last :=
      ⟨_, List.getLast?_eq_some_getLast (List.cons_ne_nil b t)⟩
    have hlast : (letter :: quote :: b :: t)[(letter :: quote :: b :: t).length - 1]? =
        some last := by
      rw [← List.getLast?_eq_getElem?, List.getLast?_cons_cons, List.getLast?_cons_cons, hgetLast]
    have hslice : slice (letter :: quote :: b :: t) 2 ((letter :: quote :: b :: t).length - 1) =
        some (b :: t).dropLast := by
      rw [slice_eq (by simp) (Nat.sub_le _ _), columns, List.dropLast_eq_take]
      simp
    rw [if_neg (by simp), hlast, hslice, Constant.decode?, Constant.split?, hgetLast]
    simp only [List.getElem?_cons_succ, List.getElem?_cons_zero, Option.bind_eq_bind,
      Option.bind_some]
    by_cases hquote : quote = Text.apostrophe ∧ last = Text.apostrophe
    · rw [if_neg (by simp [hquote]), if_pos ⟨hquote.1, congrArg some hquote.2⟩]
      cases Constant.Kind.ofLetter? letter with
      | none => rfl
      | some kind =>
        dsimp only [Option.map_some]
        generalize (b :: t).dropLast = content
        by_cases hne : content = []
        · simp [hne, Constant.content?]
        · rw [if_neg hne]
          cases kind with
          | characters =>
            rw [Constant.content?, if_neg hne]
            rfl
          | hexadecimal => exact pairs_padded hne
    · rw [if_pos (by rwa [ne_eq, ne_eq, ← not_and_or]),
        if_neg (fun h => hquote ⟨h.1, Option.some.inj h.2⟩)]
      rfl

end Checked

end SicXe
