import SicXe.Statement

/-!
# Glyphs and fields of a text

* `flatMap_bytes_glyphs`: the glyphs of a text have its bytes, so their number is at most its
  length, and equal to it if and only if every glyph has one byte (`length_glyphs_eq_iff`).
* `field_spec`: a field is made of glyphs of the text that are no blanks. So it is not longer than
  the text, and none of the bytes that are blanks by themselves is in it (`isSpace_of_mem_field`).
-/

namespace SicXe

/-! ## The bytes of a glyph -/

namespace Glyph

theorem val_ofNat {n : Nat} (h : n.isValidChar) : (Char.ofNat n).val.toNat = n := by
  rw [Char.ofNat, dif_pos h]
  rfl

theorem scalar?_spec {least code : Nat} {c : Char} (h : scalar? least code = some c) :
    least ≤ code ∧ code.isValidChar ∧ c.val.toNat = code := by
  unfold scalar? at h
  split at h
  · rename_i hv
    cases h
    exact ⟨hv.1, hv.2, val_ofNat hv.2⟩
  · cases h

theorem continuation?_spec {b : UInt8} {v : Nat} (h : continuation? b = some v) :
    v < 0x40 ∧ b.toNat = 0x80 + v := by
  unfold continuation? at h
  split at h
  · rw [Option.some.injEq] at h
    omega
  · cases h

theorem ofNat_eq {b : UInt8} {n : Nat} (h : n = b.toNat) : UInt8.ofNat n = b := by
  rw [h, UInt8.ofNat_toNat]

/-- A character begins with the byte it was read from, and takes the bytes behind it that it
says. -/
theorem head?_spec {b : UInt8} {rest : Text} {c : Char} {n : Nat}
    (h : head? b rest = some (c, n)) :
    String.utf8EncodeChar c = b :: rest.take n ∧ n ≤ rest.length := by
  have hb := b.toNat_lt
  unfold head? at h
  simp only at h
  split at h
  · cases h
    have hv : (Char.ofNat b.toNat).val.toNat = b.toNat := val_ofNat (.inl (by omega))
    simp only [String.utf8EncodeChar, hv, if_pos (show b.toNat ≤ 0x7f by omega), List.take_zero,
      UInt8.ofNat_toNat, Nat.zero_le, and_self]
  split at h
  · cases h
  split at h
  · -- one more byte
    rcases rest with _ | ⟨b₁, rest⟩
    · cases h
    obtain ⟨c₁, h₁, h⟩ := Option.bind_eq_some_iff.1 h
    obtain ⟨c', hc, h⟩ := Option.bind_eq_some_iff.1 h
    cases h
    obtain ⟨hl, hv, hc⟩ := scalar?_spec hc
    obtain ⟨h₁, e₁⟩ := continuation?_spec h₁
    simp only [String.utf8EncodeChar, hc]
    rw [if_neg (by omega), if_pos (by omega), ofNat_eq (b := b) (by omega),
      ofNat_eq (b := b₁) (by omega)]
    simp
  split at h
  · -- two more bytes
    rcases rest with _ | ⟨b₁, _ | ⟨b₂, rest⟩⟩
    · cases h
    · cases h
    obtain ⟨c₁, h₁, h⟩ := Option.bind_eq_some_iff.1 h
    obtain ⟨c₂, h₂, h⟩ := Option.bind_eq_some_iff.1 h
    obtain ⟨c', hc, h⟩ := Option.bind_eq_some_iff.1 h
    cases h
    obtain ⟨hl, hv, hc⟩ := scalar?_spec hc
    obtain ⟨h₁, e₁⟩ := continuation?_spec h₁
    obtain ⟨h₂, e₂⟩ := continuation?_spec h₂
    simp only [String.utf8EncodeChar, hc]
    rw [if_neg (by omega), if_neg (by omega), if_pos (by omega), ofNat_eq (b := b) (by omega),
      ofNat_eq (b := b₁) (by omega), ofNat_eq (b := b₂) (by omega)]
    simp
  split at h
  · -- three more bytes
    rcases rest with _ | ⟨b₁, _ | ⟨b₂, _ | ⟨b₃, rest⟩⟩⟩
    · cases h
    · cases h
    · cases h
    obtain ⟨c₁, h₁, h⟩ := Option.bind_eq_some_iff.1 h
    obtain ⟨c₂, h₂, h⟩ := Option.bind_eq_some_iff.1 h
    obtain ⟨c₃, h₃, h⟩ := Option.bind_eq_some_iff.1 h
    obtain ⟨c', hc, h⟩ := Option.bind_eq_some_iff.1 h
    cases h
    obtain ⟨hl, hv, hc⟩ := scalar?_spec hc
    obtain ⟨h₁, e₁⟩ := continuation?_spec h₁
    obtain ⟨h₂, e₂⟩ := continuation?_spec h₂
    obtain ⟨h₃, e₃⟩ := continuation?_spec h₃
    simp only [String.utf8EncodeChar, hc]
    rw [if_neg (by omega), if_neg (by omega), if_neg (by omega), ofNat_eq (b := b) (by omega),
      ofNat_eq (b := b₁) (by omega), ofNat_eq (b := b₂) (by omega),
      ofNat_eq (b := b₃) (by omega)]
    simp
  · cases h

theorem le_of_head?_eq_none {b : UInt8} {rest : Text} (h : head? b rest = none) :
    0x80 ≤ b.toNat := by
  unfold head? at h
  simp only at h
  split at h
  · cases h
  · omega

theorem bytes_ne_nil (g : Glyph) : g.bytes ≠ [] := by
  cases g with
  | char c => exact String.utf8EncodeChar_ne_nil
  | stray b => simp [bytes]

theorem flatMap_bytes_collect : ∀ (t : Text) (seen : List Glyph) (skip : Nat),
    (collect seen skip t).flatMap bytes = seen.reverse.flatMap bytes ++ t.drop skip
  | [], seen, skip => by simp [collect]
  | _ :: t, seen, skip + 1 => by simp [collect, flatMap_bytes_collect t seen skip]
  | b :: t, seen, 0 => by
    unfold collect
    split
    · rename_i c n h
      obtain ⟨hc, -⟩ := head?_spec h
      rw [flatMap_bytes_collect t, List.reverse_cons, List.flatMap_append, List.append_assoc]
      simp [bytes, hc]
    · rw [flatMap_bytes_collect t]
      simp [bytes]

/-- A stray glyph is a byte that no character of one byte has. -/
theorem stray_mem_collect : ∀ (t : Text) (seen : List Glyph) (skip : Nat),
    (∀ b, .stray b ∈ seen → 0x80 ≤ b.toNat) →
    ∀ b, .stray b ∈ collect seen skip t → 0x80 ≤ b.toNat
  | [], seen, skip, hs => by simpa [collect] using hs
  | _ :: t, seen, skip + 1, hs => by
    rw [collect]
    exact stray_mem_collect t seen skip hs
  | a :: t, seen, 0, hs => by
    unfold collect
    split
    · exact stray_mem_collect t _ _ fun b hb => hs b (by simpa using hb)
    · rename_i h
      refine stray_mem_collect t _ _ fun b hb => ?_
      rcases List.mem_cons.1 hb with hb | hb
      · cases hb
        exact le_of_head?_eq_none h
      · exact hs b hb

end Glyph

namespace Text

/-- **The glyphs of a text** have its bytes. -/
theorem flatMap_bytes_glyphs (t : Text) : t.glyphs.flatMap Glyph.bytes = t := by
  rw [glyphs, Glyph.flatMap_bytes_collect]
  simp

theorem stray_mem_glyphs {t : Text} {b : UInt8} (h : .stray b ∈ t.glyphs) : 0x80 ≤ b.toNat :=
  Glyph.stray_mem_collect t [] 0 (by simp) b h

theorem length_flatMap_bytes : ∀ gs : List Glyph,
    gs.length ≤ (gs.flatMap Glyph.bytes).length ∧
      (gs.length = (gs.flatMap Glyph.bytes).length ↔ ∀ g ∈ gs, g.bytes.length = 1)
  | [] => by simp
  | g :: gs => by
    obtain ⟨hle, hiff⟩ := length_flatMap_bytes gs
    have hpos : 0 < g.bytes.length := List.length_pos_iff.2 g.bytes_ne_nil
    simp only [List.flatMap_cons, List.length_append, List.length_cons, List.forall_mem_cons]
    rw [← hiff]
    omega

/-- A text has at most as many glyphs as bytes, and as many only if each glyph has one. -/
theorem length_glyphs_le (t : Text) : t.glyphs.length ≤ t.length := by
  have := (length_flatMap_bytes t.glyphs).1
  rwa [flatMap_bytes_glyphs] at this

theorem length_glyphs_eq_iff (t : Text) :
    t.glyphs.length = t.length ↔ ∀ g ∈ t.glyphs, g.bytes.length = 1 := by
  have := (length_flatMap_bytes t.glyphs).2
  rwa [flatMap_bytes_glyphs] at this

/-! ## Fields -/

/-- A run of glyphs without a blank, written out. -/
def IsRun (run : List Glyph) (field : Text) : Prop :=
  (∀ g ∈ run, g.isBlank = false) ∧ field = run.flatMap Glyph.bytes

/-- Going from right to left, the current field is a run at the front, and the finished ones are
runs inside. -/
theorem foldr_push_spec : ∀ gs : List Glyph,
    (∃ run, run <+: gs ∧ IsRun run (gs.foldr Fields.push ⟨[], []⟩).current) ∧
      ∀ field ∈ (gs.foldr Fields.push ⟨[], []⟩).finished,
        field ≠ [] ∧ ∃ run, run <:+: gs ∧ IsRun run field
  | [] => ⟨⟨[], List.prefix_refl _, by simp, rfl⟩, by simp⟩
  | g :: gs => by
    obtain ⟨⟨run, hrun, hblank, hcur⟩, hfin⟩ := foldr_push_spec gs
    have hfin' : ∀ field ∈ (gs.foldr Fields.push ⟨[], []⟩).finished,
        field ≠ [] ∧ ∃ run, run <:+: g :: gs ∧ IsRun run field := by
      intro field hf
      obtain ⟨hne, r, hr, hb⟩ := hfin field hf
      exact ⟨hne, r, hr.trans (List.suffix_cons g gs).isInfix, hb⟩
    rw [List.foldr_cons, Fields.push]
    split
    · refine ⟨⟨[], List.nil_prefix, by simp, rfl⟩, fun field hf => ?_⟩
      simp only [Fields.close] at hf
      split at hf
      · exact hfin' field hf
      · rename_i hne
        rcases List.mem_cons.1 hf with rfl | hf
        · exact ⟨hne, run, hrun.isInfix.trans (List.suffix_cons g gs).isInfix, hblank, hcur⟩
        · exact hfin' field hf
    · rename_i hg
      refine ⟨⟨g :: run, List.prefix_cons_inj g |>.2 hrun, ?_, ?_⟩, hfin'⟩
      · exact List.forall_mem_cons.2 ⟨by simpa using hg, hblank⟩
      · rw [List.flatMap_cons, ← hcur]

/-- The fields of a sequence of glyphs. -/
def fieldsOf (gs : List Glyph) : List Text := (gs.foldr Fields.push ⟨[], []⟩).close

theorem mem_fieldsOf {gs : List Glyph} {field : Text} (h : field ∈ fieldsOf gs) :
    field ≠ [] ∧ ∃ run, run <:+: gs ∧ IsRun run field := by
  obtain ⟨⟨run, hrun, hblank, hcur⟩, hfin⟩ := foldr_push_spec gs
  rw [fieldsOf, Fields.close] at h
  split at h
  · exact hfin field h
  · rename_i hne
    rcases List.mem_cons.1 h with rfl | h
    · exact ⟨hne, run, hrun.isInfix, hblank, hcur⟩
    · exact hfin field h

/-- **A field** is not empty and is a run of glyphs of its text without a blank. -/
theorem field_spec {t field : Text} (h : field ∈ t.fields) :
    field ≠ [] ∧ ∃ run, run <:+: t.glyphs ∧ IsRun run field :=
  mem_fieldsOf h

theorem flatMap_bytes_isInfix {part gs : List Glyph} (h : part <:+: gs) :
    part.flatMap Glyph.bytes <:+: gs.flatMap Glyph.bytes := by
  obtain ⟨before, after, rfl⟩ := h
  refine ⟨before.flatMap Glyph.bytes, after.flatMap Glyph.bytes, ?_⟩
  rw [List.flatMap_append, List.flatMap_append]

theorem field_isInfix {t field : Text} (h : field ∈ t.fields) : field <:+: t := by
  obtain ⟨-, run, hrun, -, rfl⟩ := field_spec h
  have hlies := flatMap_bytes_isInfix hrun
  rwa [flatMap_bytes_glyphs] at hlies

theorem length_field_le {t field : Text} (h : field ∈ t.fields) : field.length ≤ t.length :=
  (field_isInfix h).length_le

/-- A run of glyphs without a blank extends the field behind it. -/
theorem foldr_push_run (rest : List Glyph) : ∀ {run : List Glyph}, (∀ g ∈ run, g.isBlank = false) →
    (run ++ rest).foldr Fields.push ⟨[], []⟩ =
      ⟨run.flatMap Glyph.bytes ++ (rest.foldr Fields.push ⟨[], []⟩).current,
        (rest.foldr Fields.push ⟨[], []⟩).finished⟩
  | [], _ => rfl
  | g :: run, h => by
    rw [List.forall_mem_cons] at h
    rw [List.cons_append, List.foldr_cons, foldr_push_run rest h.2, Fields.push, h.1,
      if_neg Bool.false_ne_true, List.flatMap_cons, List.append_assoc]

/-- The bytes that are blanks by themselves: tab to carriage return, and the blank. -/
def isSpace (b : UInt8) : Bool := (0x09 ≤ b.toNat && b.toNat ≤ 0x0D) || b.toNat == 0x20

/-- A character that holds such a byte is a blank. -/
theorem isBlank_of_mem_bytes {c : Char} {b : UInt8} (hb : b ∈ String.utf8EncodeChar c)
    (hs : isSpace b = true) : (Glyph.char c).isBlank = true := by
  have hlt : b.toNat < 0x80 := by
    simp only [isSpace, Bool.or_eq_true, Bool.and_eq_true, decide_eq_true_eq, beq_iff_eq] at hs
    omega
  simp only [String.utf8EncodeChar] at hb
  split at hb
  · rw [List.mem_singleton] at hb
    subst hb
    simp only [isSpace, UInt8.toNat_ofNat', Bool.or_eq_true, Bool.and_eq_true, decide_eq_true_eq,
      beq_iff_eq] at hs
    simp only [Glyph.isBlank, Char.toNat, Bool.or_eq_true, Bool.and_eq_true, decide_eq_true_eq,
      beq_iff_eq]
    omega
  · -- every byte of a longer encoding is at least 0x80
    have hhigh : 0x80 ≤ b.toNat := by
      split at hb
      case isTrue =>
        simp only [List.mem_cons, List.not_mem_nil, or_false, ← UInt8.toNat_inj,
          UInt8.toNat_ofNat'] at hb
        omega
      case isFalse =>
        split at hb <;>
          simp only [List.mem_cons, List.not_mem_nil, or_false, ← UInt8.toNat_inj,
            UInt8.toNat_ofNat'] at hb <;> omega
    omega

/-- **No byte of a field** is a blank by itself. -/
theorem isSpace_of_mem_field {t field : Text} (h : field ∈ t.fields) {b : UInt8} (hb : b ∈ field) :
    isSpace b = false := by
  obtain ⟨-, run, hrun, hblank, rfl⟩ := field_spec h
  obtain ⟨g, hg, hbg⟩ := List.mem_flatMap.1 hb
  rw [← Bool.not_eq_true]
  intro hs
  cases g with
  | char c => simpa [isBlank_of_mem_bytes hbg hs] using hblank _ hg
  | stray a =>
    have := stray_mem_glyphs (hrun.subset hg)
    rw [Glyph.bytes, List.mem_singleton] at hbg
    subst hbg
    simp only [isSpace, Bool.or_eq_true, Bool.and_eq_true, decide_eq_true_eq, beq_iff_eq] at hs
    omega

/-! ## Words -/

theorem collect_of_ascii : ∀ (t : Text) (seen : List Glyph), (∀ b ∈ t, b.toNat < 0x80) →
    Glyph.collect seen 0 t = seen.reverse ++ t.map fun b => .char (Char.ofNat b.toNat)
  | [], seen, _ => by rw [Glyph.collect, List.map_nil, List.append_nil]
  | b :: t, seen, h => by
    rw [List.forall_mem_cons] at h
    have hhead : Glyph.head? b t = some (Char.ofNat b.toNat, 0) := if_pos h.1
    rw [Glyph.collect, hhead]
    dsimp only
    rw [collect_of_ascii t _ h.2, List.reverse_cons, List.append_assoc, List.map_cons]
    rfl

/-- Bytes below 128 are characters of their own. -/
theorem glyphs_of_ascii {t : Text} (h : ∀ b ∈ t, b.toNat < 0x80) :
    t.glyphs = t.map fun b => .char (Char.ofNat b.toNat) :=
  collect_of_ascii t [] h

/-- Visible bytes of ASCII. -/
structure IsWord (t : Text) : Prop where
  nonempty : t ≠ []
  visible : ∀ b ∈ t, 0x21 ≤ b.toNat ∧ b.toNat < 0x7F

theorem IsWord.isBlank {t : Text} (h : IsWord t) : ∀ g ∈ t.glyphs, g.isBlank = false := by
  intro g hg
  rw [glyphs_of_ascii fun b hb => by have := h.visible b hb; omega] at hg
  obtain ⟨b, hb, rfl⟩ := List.mem_map.1 hg
  have hb := h.visible b hb
  have hcode : (Char.ofNat b.toNat).toNat = b.toNat :=
    Glyph.val_ofNat (Or.inl (by omega))
  simp only [Glyph.isBlank, hcode, Bool.or_eq_false_iff, Bool.and_eq_false_iff, beq_eq_false_iff_ne,
    decide_eq_false_iff_not]
  omega

section
variable {first second : Text} (hfirst : IsWord first) (hsecond : IsWord second)
include hfirst hsecond

theorem glyphs_pair :
    (first ++ blank :: second).glyphs = first.glyphs ++ .char ' ' :: second.glyphs := by
  have hascii {t : Text} (h : IsWord t) : ∀ b ∈ t, b.toNat < 0x80 := fun b hb => by
    have := h.visible b hb
    omega
  rw [glyphs_of_ascii (hascii hfirst), glyphs_of_ascii (hascii hsecond), glyphs_of_ascii]
  · rw [List.map_append, List.map_cons]
    rfl
  · intro b hb
    rcases List.mem_append.1 hb with hb | hb
    · exact hascii hfirst b hb
    · rcases List.mem_cons.1 hb with rfl | hb
      · decide
      · exact hascii hsecond b hb

/-- **Two words** with a blank between them are the fields of their line. -/
theorem fields_pair : (first ++ blank :: second).fields = [first, second] := by
  have hrun := foldr_push_run [] hsecond.isBlank
  rw [List.append_nil, flatMap_bytes_glyphs] at hrun
  rw [fields, glyphs_pair hfirst hsecond, foldr_push_run _ hfirst.isBlank, List.foldr_cons, hrun,
    flatMap_bytes_glyphs]
  simp [Fields.push, Fields.close, Glyph.isBlank, hfirst.nonempty, hsecond.nonempty]

theorem isComment_pair (hmarker : first.head? ≠ some commentMarker) :
    (first ++ blank :: second).isComment = false := by
  have hne : first.glyphs ≠ [] := by
    intro hnil
    exact hfirst.nonempty (by rw [← flatMap_bytes_glyphs first, hnil, List.flatMap_nil])
  obtain ⟨g, gs, hglyphs⟩ := List.exists_cons_of_ne_nil hne
  have hg : ¬ g.isBlank = true := by simp [hfirst.isBlank g (by simp [hglyphs])]
  have hkept : (first ++ blank :: second).trimStart = first ++ blank :: second := by
    have hall := glyphs_pair hfirst hsecond
    rw [hglyphs, List.cons_append] at hall
    rw [trimStart, hall, List.dropWhile_cons_of_neg hg, ← hall, flatMap_bytes_glyphs]
  rw [isComment, hkept]
  cases first with
  | nil => exact absurd rfl hfirst.nonempty
  | cons b first => exact beq_false_of_ne fun h => hmarker (congrArg some h)

end

end Text

end SicXe
