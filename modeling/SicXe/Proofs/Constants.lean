import Mathlib.Algebra.Order.Ring.Int
import SicXe.Operand

/-!
# Quoted constants and rows of digits

* `hexContent?_hexBytes`: bytes written with two digits each are read back.
* `length_hexContent?`: a row of digits stands for half as many bytes, rounded up.
* `split?_eq_some_iff`, `decode?_eq_some_iff_content?`: a constant is its letter and its content in
  quotes.
* `length_decode?_le`: a constant is not shorter than the bytes it stands for.
-/

namespace SicXe

/-! ## Digits -/

namespace Numeral

theorem digit?_upperDigit {d : Nat} (h : d < 16) : digit? 16 (upperDigit d) = some d := by
  have : ∀ d < 16, digit? 16 (upperDigit d) = some d := by decide
  exact this d h

theorem hexBytes_cons (b : UInt8) (data : Text) : hexBytes (b :: data) =
    upperDigit (b.toNat / 16) :: upperDigit (b.toNat % 16) :: hexBytes data := rfl

end Numeral

namespace Constant

/-! ## Rows of digits -/

/-- One digit on the left of a row that was read. -/
def pushDigit (b : UInt8) (row : Option HexRow) : Option HexRow :=
  row.bind fun row => (Numeral.digit? 16 b).map row.push

theorem hexContent?_eq (content : Text) :
    hexContent? content =
      (content.foldr pushDigit (some ⟨none, []⟩)).map HexRow.close := by
  have h : (fun b row => do return (← row).push (← Numeral.digit? 16 b)) = pushDigit := by
    funext b row
    cases row with
    | none => rfl
    | some row => cases h : Numeral.digit? 16 b <;> simp [pushDigit, h]
  rw [hexContent?, ← h]

/-- A row has two digits for each byte, and one that waits. -/
theorem length_foldr_pushDigit : ∀ (content : Text) {row : HexRow},
    content.foldr pushDigit (some ⟨none, []⟩) = some row →
    content.length = 2 * row.bytes.length + row.waiting.toList.length
  | [], row, h => by
    cases h
    rfl
  | b :: content, row, h => by
    rw [List.foldr_cons] at h
    obtain ⟨before, hb, h⟩ := Option.bind_eq_some_iff.1 h
    obtain ⟨d, -, rfl⟩ := Option.map_eq_some_iff.1 h
    have ih := length_foldr_pushDigit content hb
    cases hw : before.waiting <;> simp [HexRow.push, hw] at ih ⊢ <;> omega

theorem length_hexContent? {content data : Text} (h : hexContent? content = some data) :
    data.length = (content.length + 1) / 2 := by
  rw [hexContent?_eq] at h
  obtain ⟨row, hr, rfl⟩ := Option.map_eq_some_iff.1 h
  have := length_foldr_pushDigit content hr
  cases hw : row.waiting <;> simp [HexRow.close, hw] at this ⊢ <;> omega

/-- **Bytes as digits and back.** -/
theorem hexContent?_hexBytes (data : Text) : hexContent? (Numeral.hexBytes data) = some data := by
  have row : (Numeral.hexBytes data).foldr pushDigit (some ⟨none, []⟩) = some ⟨none, data⟩ := by
    induction data with
    | nil => rfl
    | cons b data ih =>
      have hb := b.toNat_lt
      simp only [Numeral.hexBytes_cons, List.foldr_cons, ih, pushDigit, Option.bind_some,
        Numeral.digit?_upperDigit (show b.toNat % 16 < 16 by omega),
        Numeral.digit?_upperDigit (show b.toNat / 16 < 16 by omega), Option.map_some,
        HexRow.push, show b.toNat / 16 * 16 + b.toNat % 16 = b.toNat by omega, UInt8.ofNat_toNat]
  rw [hexContent?_eq, row]
  rfl

/-! ## Constants -/

section
variable {kind : Kind} {t content data : Text}

theorem ofLetter?_eq_some_iff {b : UInt8} : Kind.ofLetter? b = some kind ↔ b = kind.letter := by
  cases kind <;> simp only [Kind.ofLetter?, Kind.letter] <;> split_ifs <;> simp_all

theorem split?_eq_some_iff : split? t = some (kind, content) ↔
    t = kind.letter :: Text.apostrophe :: (content ++ [Text.apostrophe]) := by
  constructor
  · intro h
    match t, h with
    | letter :: quote :: rest, h =>
      rw [split?, Option.ite_none_right_eq_some] at h
      obtain ⟨⟨rfl, hlast⟩, h⟩ := h
      obtain ⟨_, hletter, hpair⟩ := Option.map_eq_some_iff.1 h
      cases hpair
      obtain ⟨content, rfl⟩ := List.getLast?_eq_some_iff.1 hlast
      rw [List.dropLast_concat, ofLetter?_eq_some_iff.1 hletter]
  · rintro rfl
    rw [split?, if_pos ⟨rfl, List.getLast?_concat⟩, ofLetter?_eq_some_iff.2 rfl, Option.map_some,
      List.dropLast_concat]

theorem decode?_eq_some_iff_content? : decode? t = some data ↔ ∃ kind content,
    t = kind.letter :: Text.apostrophe :: (content ++ [Text.apostrophe]) ∧
      content? kind content = some data := by
  unfold decode?
  constructor
  · intro h
    cases hsplit : split? t with
    | none =>
      rw [hsplit] at h
      cases h
    | some parts =>
      rw [hsplit] at h
      exact ⟨parts.1, parts.2, split?_eq_some_iff.1 hsplit, h⟩
  · rintro ⟨kind, content, ht, hcontent⟩
    rw [split?_eq_some_iff.2 ht]
    exact hcontent

theorem content?_characters : content? .characters content = some data ↔
    content ≠ [] ∧ (∀ b ∈ content, b.toNat < 128) ∧ content = data := by
  simp [content?, characterContent?]

theorem content?_hexadecimal : content? .hexadecimal content = some data ↔
    content ≠ [] ∧ hexContent? content = some data := by
  simp [content?]

theorem content?_hexBytes (hne : data ≠ []) :
    content? .hexadecimal (Numeral.hexBytes data) = some data := by
  obtain ⟨b, rest, rfl⟩ := List.exists_cons_of_ne_nil hne
  exact content?_hexadecimal.2 ⟨List.cons_ne_nil _ _, hexContent?_hexBytes _⟩

theorem length_content?_le (h : content? kind content = some data) :
    data.length ≤ content.length := by
  cases kind with
  | characters =>
    obtain ⟨-, -, rfl⟩ := content?_characters.1 h
    exact Nat.le_refl _
  | hexadecimal =>
    obtain ⟨hne, hbytes⟩ := content?_hexadecimal.1 h
    have hlength := length_hexContent? hbytes
    have hpos := List.length_pos_iff.2 hne
    omega

theorem content?_ne_nil (h : content? kind content = some data) : data ≠ [] := by
  cases kind with
  | characters =>
    obtain ⟨hne, -, rfl⟩ := content?_characters.1 h
    exact hne
  | hexadecimal =>
    obtain ⟨hne, hbytes⟩ := content?_hexadecimal.1 h
    have hlength := length_hexContent? hbytes
    have hpos := List.length_pos_iff.2 hne
    exact List.length_pos_iff.1 (by omega)

theorem decode?_ne_nil (h : decode? t = some data) : data ≠ [] := by
  obtain ⟨kind, content, -, hcontent⟩ := decode?_eq_some_iff_content?.1 h
  exact content?_ne_nil hcontent

theorem length_decode?_le (h : decode? t = some data) : data.length ≤ t.length := by
  obtain ⟨kind, content, rfl, hcontent⟩ := decode?_eq_some_iff_content?.1 h
  have hle := length_content?_le hcontent
  simp only [List.length_cons, List.length_append]
  omega

end

end Constant

end SicXe
