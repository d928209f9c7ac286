import SicXe.Proofs.Tokens

/-!
# Where the fields of a text stand

The fields of a text come without their places. Here the places are told from the glyphs, and
compared with those where the bytes of a field are found.

* `fieldStarts`: the number of bytes before each field. `exists_cut_of_start`: there the glyphs can
  be cut into those before the field, its own, and those behind it.
* `columnOf_spec`: the column of a text is that of its first occurrence.
* `exists_glyphs`: in UTF-8, where the bytes of some characters occur, these characters stand.
* `Cut.isInfix_before`, `Cut.occurs_of_mem`: so the text of a field occurs before the field if and
  only if it is a part of a field before it.
-/

namespace SicXe.Text

/-! ## Places of fields -/

/-- The numbers of bytes before the fields that begin in glyphs with `passed` bytes before them.
`within` says whether the glyph before these belongs to a field. -/
def startsFrom (passed : Nat) (within : Bool) : List Glyph → List Nat
  | [] => []
  | g :: gs =>
    let later := startsFrom (passed + g.bytes.length) (!g.isBlank) gs
    if g.isBlank || within then later else passed :: later

/-- The numbers of bytes before the fields of a text. -/
def fieldStarts (t : Text) : List Nat := startsFrom 0 false t.glyphs

theorem startsFrom_blank {g : Glyph} (h : g.isBlank = true) (passed : Nat) (within : Bool)
    (gs : List Glyph) :
    startsFrom passed within (g :: gs) = startsFrom (passed + g.bytes.length) false gs := by
  simp [startsFrom, h]

theorem startsFrom_within {g : Glyph} (h : g.isBlank = false) (passed : Nat) (gs : List Glyph) :
    startsFrom passed true (g :: gs) = startsFrom (passed + g.bytes.length) true gs := by
  simp [startsFrom, h]

theorem startsFrom_outside {g : Glyph} (h : g.isBlank = false) (passed : Nat) (gs : List Glyph) :
    startsFrom passed false (g :: gs) = passed :: startsFrom (passed + g.bytes.length) true gs := by
  simp [startsFrom, h]

theorem length_startsFrom : ∀ (gs : List Glyph) (passed : Nat),
    (startsFrom passed false gs).length = (fieldsOf gs).length ∧
      (startsFrom passed true gs).length = (gs.foldr Fields.push ⟨[], []⟩).finished.length
  | [], _ => ⟨rfl, rfl⟩
  | g :: gs, passed => by
    obtain ⟨houtside, hwithin⟩ := length_startsFrom gs (passed + g.bytes.length)
    rw [fieldsOf, List.foldr_cons]
    cases hblank : g.isBlank with
    | true =>
      rw [startsFrom_blank hblank, startsFrom_blank hblank, Fields.close_push_of_isBlank hblank,
        Fields.push, if_pos hblank]
      exact ⟨houtside, houtside⟩
    | false =>
      rw [startsFrom_outside hblank, startsFrom_within hblank, Fields.push, hblank,
        if_neg Bool.false_ne_true]
      exact ⟨by simp [Fields.close, g.bytes_ne_nil, hwithin], hwithin⟩

theorem length_fieldStarts (t : Text) : t.fieldStarts.length = t.fields.length :=
  (length_startsFrom t.glyphs 0).1

/-- Glyphs cut around a field, which reaches from a blank, or the front, to a blank, or the end. -/
structure Cut (gs before run after : List Glyph) : Prop where
  glyphs : gs = before ++ (run ++ after)
  behind_blank : ∀ g, before.getLast? = some g → g.isBlank = true
  run_ne_nil : run ≠ []
  isBlank_run : ∀ g ∈ run, g.isBlank = false
  before_blank : ∀ g, after.head? = some g → g.isBlank = true

section
variable {gs before run after : List Glyph}

theorem Cut.cons (h : Cut gs before run after) {g : Glyph}
    (hg : before = [] → g.isBlank = true) : Cut (g :: gs) (g :: before) run after := by
  refine ⟨by rw [h.glyphs, List.cons_append], fun last hlast => ?_, h.run_ne_nil, h.isBlank_run,
    h.before_blank⟩
  cases before with
  | nil =>
    cases hlast
    exact hg rfl
  | cons g' before => exact h.behind_blank last (by rwa [List.getLast?_cons_cons] at hlast)

/-- The field that begins with the first glyph. -/
theorem Cut.front {g : Glyph} (h : g.isBlank = false) (gs : List Glyph) :
    Cut (g :: gs) [] (g :: gs.takeWhile (!·.isBlank)) (gs.dropWhile (!·.isBlank)) where
  glyphs := by simp
  behind_blank := by simp
  run_ne_nil := List.cons_ne_nil _ _
  isBlank_run := by
    refine List.forall_mem_cons.2 ⟨h, fun g' hg' => ?_⟩
    have hall := List.all_eq_true.1 (List.all_takeWhile (p := (!·.isBlank)) (l := gs)) g' hg'
    simpa using hall
  before_blank := by
    intro g' hg'
    have hhead := List.head?_dropWhile_not (!·.isBlank) gs
    rw [hg'] at hhead
    simpa using hhead

/-- Each start that is counted from `passed` on belongs to a cut. Within a field, the rest of that
field stands before the cut, too, and only the finished fields behind it are counted. -/
theorem exists_cut_from : ∀ (gs : List Glyph) (passed k start : Nat),
    ((startsFrom passed false gs)[k]? = some start →
      ∃ before run after, Cut gs before run after ∧
        start = passed + (before.flatMap Glyph.bytes).length ∧ (fieldsOf before).length = k) ∧
    ((startsFrom passed true gs)[k]? = some start →
      ∃ before run after, Cut gs before run after ∧
        start = passed + (before.flatMap Glyph.bytes).length ∧ before ≠ [] ∧
        (before.foldr Fields.push ⟨[], []⟩).finished.length = k)
  | [], passed, k, start => by simp [startsFrom]
  | g :: gs, passed, k, start => by
    have ih := exists_cut_from gs (passed + g.bytes.length)
    have hgrow (before : List Glyph) :
        passed + g.bytes.length + (before.flatMap Glyph.bytes).length =
          passed + ((g :: before).flatMap Glyph.bytes).length := by
      rw [List.flatMap_cons, List.length_append, Nat.add_assoc]
    cases hblank : g.isBlank with
    | true =>
      rw [startsFrom_blank hblank, startsFrom_blank hblank]
      constructor
      · intro h
        obtain ⟨before, run, after, hcut, hstart, hcount⟩ := (ih k start).1 h
        refine ⟨g :: before, run, after, hcut.cons fun _ => hblank, hstart.trans (hgrow before), ?_⟩
        rw [fieldsOf, List.foldr_cons, Fields.close_push_of_isBlank hblank]
        exact hcount
      · intro h
        obtain ⟨before, run, after, hcut, hstart, hcount⟩ := (ih k start).1 h
        refine ⟨g :: before, run, after, hcut.cons fun _ => hblank, hstart.trans (hgrow before),
          List.cons_ne_nil _ _, ?_⟩
        rw [List.foldr_cons, Fields.push, if_pos hblank]
        exact hcount
    | false =>
      have hpush (f : Fields) : Fields.push g f = ⟨g.bytes ++ f.current, f.finished⟩ := by
        rw [Fields.push, hblank, if_neg Bool.false_ne_true]
      rw [startsFrom_outside hblank, startsFrom_within hblank]
      constructor
      · intro h
        cases k with
        | zero =>
          cases h
          exact ⟨[], _, _, Cut.front hblank gs, rfl, rfl⟩
        | succ k =>
          obtain ⟨before, run, after, hcut, hstart, hne, hcount⟩ := (ih k start).2 h
          refine ⟨g :: before, run, after, hcut.cons fun h => absurd h hne,
            hstart.trans (hgrow before), ?_⟩
          rw [fieldsOf, List.foldr_cons, hpush]
          simp [Fields.close, g.bytes_ne_nil, hcount]
      · intro h
        obtain ⟨before, run, after, hcut, hstart, hne, hcount⟩ := (ih k start).2 h
        refine ⟨g :: before, run, after, hcut.cons fun h => absurd h hne,
          hstart.trans (hgrow before), List.cons_ne_nil _ _, ?_⟩
        rw [List.foldr_cons, hpush]
        exact hcount

/-! ## Fields around a cut -/

theorem Fields.close_append (current : Text) (finished more : List Text) :
    Fields.close ⟨current, finished ++ more⟩ = Fields.close ⟨current, finished⟩ ++ more := by
  unfold Fields.close
  dsimp only
  split <;> rfl

theorem Fields.push_append (g : Glyph) (f : Fields) (more : List Text) :
    Fields.push g ⟨f.current, f.finished ++ more⟩ =
      ⟨(Fields.push g f).current, (Fields.push g f).finished ++ more⟩ := by
  unfold Fields.push
  split
  · rw [Fields.close_append]
  · rfl

/-- Behind a blank, fields begin anew. -/
theorem foldr_push_append (rest : List Glyph) : ∀ {before : List Glyph}, before ≠ [] →
    (∀ g, before.getLast? = some g → g.isBlank = true) →
      (before ++ rest).foldr Fields.push ⟨[], []⟩ =
        ⟨(before.foldr Fields.push ⟨[], []⟩).current,
          (before.foldr Fields.push ⟨[], []⟩).finished ++ fieldsOf rest⟩
  | [], hne, _ => absurd rfl hne
  | [g], _, hlast => by
    have hblank := hlast g rfl
    simp [Fields.push, hblank, Fields.close, fieldsOf]
  | g :: g' :: before, _, hlast => by
    have ih := foldr_push_append rest (List.cons_ne_nil g' before) fun last h =>
      hlast last (by rwa [List.getLast?_cons_cons])
    rw [List.cons_append, List.foldr_cons, ih]
    exact Fields.push_append g _ _

theorem flatMap_bytes_ne_nil (h : gs ≠ []) : gs.flatMap Glyph.bytes ≠ [] := by
  obtain ⟨g, gs, rfl⟩ := List.exists_cons_of_ne_nil h
  simp [g.bytes_ne_nil]

/-- **The fields of glyphs that are cut** at one of them. -/
theorem Cut.fieldsOf_eq (h : Cut gs before run after) :
    fieldsOf gs = fieldsOf before ++ run.flatMap Glyph.bytes :: fieldsOf after := by
  have hbehind : fieldsOf (run ++ after) = run.flatMap Glyph.bytes :: fieldsOf after := by
    have hcurrent : (after.foldr Fields.push ⟨[], []⟩).current = [] := by
      cases after with
      | nil => rfl
      | cons g after => rw [List.foldr_cons, Fields.push, if_pos (h.before_blank g rfl)]
    rw [fieldsOf, fieldsOf, foldr_push_run after h.isBlank_run, hcurrent, List.append_nil]
    simp [Fields.close, hcurrent, flatMap_bytes_ne_nil h.run_ne_nil]
  rw [h.glyphs]
  by_cases hne : before = []
  · rw [hne, List.nil_append, hbehind]
    rfl
  · rw [fieldsOf, foldr_push_append _ hne h.behind_blank, Fields.close_append, hbehind]
    rfl

/-- **The field with number `k`** can be cut out of the glyphs of its text at its start. -/
theorem exists_cut_of_start {t : Text} {k start : Nat} (h : t.fieldStarts[k]? = some start) :
    ∃ before run after, Cut t.glyphs before run after ∧
      start = (before.flatMap Glyph.bytes).length ∧ t.fields.take k = fieldsOf before ∧
      t.fields[k]? = some (run.flatMap Glyph.bytes) := by
  obtain ⟨before, run, after, hcut, hstart, hcount⟩ := (exists_cut_from t.glyphs 0 k start).1 h
  have hfields : t.fields = fieldsOf before ++ run.flatMap Glyph.bytes :: fieldsOf after :=
    hcut.fieldsOf_eq
  refine ⟨before, run, after, hcut, by rw [hstart, Nat.zero_add], ?_, ?_⟩
  · rw [hfields, ← hcount, List.take_left]
  · rw [hfields, ← hcount]
    simp

/-- Glyphs without a blank are a part of one field. -/
theorem exists_field_of_isInfix {part : List Glyph} (hne : part ≠ [])
    (hpart : ∀ g ∈ part, g.isBlank = false) (h : part <:+: gs) :
    ∃ field ∈ fieldsOf gs, part.flatMap Glyph.bytes <:+: field := by
  obtain ⟨front, behind, rfl⟩ := h
  induction front with
  | nil =>
    rw [List.nil_append, fieldsOf, foldr_push_run behind hpart, Fields.close,
      if_neg (List.append_ne_nil_of_left_ne_nil (flatMap_bytes_ne_nil hne) _)]
    exact ⟨_, List.mem_cons_self, (List.prefix_append _ _).isInfix⟩
  | cons g front ih =>
    obtain ⟨field, hfield, hlies⟩ := ih
    rw [fieldsOf, List.cons_append, List.cons_append, List.foldr_cons]
    cases hblank : g.isBlank with
    | true =>
      rw [Fields.close_push_of_isBlank hblank]
      exact ⟨field, hfield, hlies⟩
    | false =>
      rw [Fields.push, hblank, if_neg Bool.false_ne_true, Fields.close,
        if_neg (List.append_ne_nil_of_left_ne_nil g.bytes_ne_nil _)]
      rw [fieldsOf, Fields.close] at hfield
      split at hfield
      · exact ⟨field, List.mem_cons_of_mem _ hfield, hlies⟩
      · rcases List.mem_cons.1 hfield with rfl | hfield
        · exact ⟨_, List.mem_cons_self, hlies.trans (List.suffix_append _ _).isInfix⟩
        · exact ⟨field, List.mem_cons_of_mem _ hfield, hlies⟩

end

/-! ## Occurrences -/

/-- A text stands in a line behind the given number of bytes. -/
def OccursAt (line text : Text) (offset : Nat) : Prop := text <+: line.drop offset

instance (line text : Text) (offset : Nat) : Decidable (line.OccursAt text offset) :=
  inferInstanceAs (Decidable (_ <+: _))

/-- A search finds the first occurrence. -/
theorem offsetFrom_eq_some : ∀ {t needle : Text} {passed n : Nat},
    offsetFrom passed needle t = some n →
      ∃ offset, n = passed + offset ∧ t.OccursAt needle offset ∧
        ∀ other, t.OccursAt needle other → offset ≤ other
  | [], needle, passed, n, h => by
    rw [offsetFrom] at h
    split at h
    · rename_i hneedle
      cases h
      exact ⟨0, rfl, by rw [hneedle]; exact List.nil_prefix, fun other _ => Nat.zero_le other⟩
    · cases h
  | b :: t, needle, passed, n, h => by
    rw [offsetFrom] at h
    split at h
    · rename_i hfront
      cases h
      exact ⟨0, rfl, List.isPrefixOf_iff_prefix.1 hfront, fun other _ => Nat.zero_le other⟩
    · rename_i hfront
      obtain ⟨offset, rfl, hoccurs, hleast⟩ := offsetFrom_eq_some h
      refine ⟨offset + 1, by omega, hoccurs, fun other hother => ?_⟩
      cases other with
      | zero => exact absurd (List.isPrefixOf_iff_prefix.2 hother) hfront
      | succ other => exact Nat.succ_le_succ (hleast other hother)

theorem offsetFrom_isSome : ∀ {t needle : Text} {offset : Nat}, t.OccursAt needle offset →
    ∀ passed : Nat, (offsetFrom passed needle t).isSome
  | [], needle, offset, h, passed => by
    have hneedle : needle = [] := by simpa [OccursAt] using h
    rw [offsetFrom, if_pos hneedle]
    rfl
  | b :: t, needle, offset, h, passed => by
    rw [offsetFrom]
    split
    · rfl
    · rename_i hfront
      cases offset with
      | zero => exact absurd (List.isPrefixOf_iff_prefix.2 h) hfront
      | succ offset => exact offsetFrom_isSome (show OccursAt t needle offset from h) (passed + 1)

/-- **The column of a text** that occurs in a line is that of its first occurrence. -/
theorem columnOf_spec {line text : Text} (hne : text ≠ []) {start : Nat}
    (h : line.OccursAt text start) :
    ∃ offset, line.columnOf text = offset + 1 ∧ line.OccursAt text offset ∧
      ∀ other, line.OccursAt text other → offset ≤ other := by
  obtain ⟨n, hn⟩ := Option.isSome_iff_exists.1 (offsetFrom_isSome h 0)
  obtain ⟨offset, rfl, hoccurs, hleast⟩ := offsetFrom_eq_some hn
  refine ⟨offset, ?_, hoccurs, hleast⟩
  rw [columnOf, if_neg hne, offset?, hn, Option.elim_some, Nat.zero_add]

/-! ## Occurrences in UTF-8 -/

/-- No character of UTF-8 begins with another one. -/
theorem utf8EncodeChar_inj {c c' : Char} {t t' : Text}
    (h : String.utf8EncodeChar c ++ t = String.utf8EncodeChar c' ++ t') : c = c' := by
  have hdecode := congrArg (fun bytes => (List.toByteArray bytes).utf8DecodeChar? 0) h
  simpa only [List.toByteArray_append, ByteArray.utf8DecodeChar?_utf8EncodeChar_append,
    Option.some.injEq] using hdecode

/-- Glyphs that are all characters. -/
def AreChars (gs : List Glyph) : Prop := ∀ g ∈ gs, ∃ c, g = .char c

theorem areChars_glyphs {t : Text} (h : t.isUtf8 = true) : AreChars t.glyphs := by
  intro g hg
  have hchar := List.all_eq_true.1 h g hg
  cases g with
  | char c => exact ⟨c, rfl⟩
  | stray b => exact absurd hchar Bool.false_ne_true

theorem isPrefix_of_bytes : ∀ {part gs : List Glyph}, AreChars part → AreChars gs →
    part.flatMap Glyph.bytes <+: gs.flatMap Glyph.bytes → part <+: gs
  | [], _, _, _, _ => List.nil_prefix
  | g :: part, [], _, _, h => by
    rw [List.flatMap_nil, List.prefix_nil] at h
    exact absurd h (flatMap_bytes_ne_nil (List.cons_ne_nil g part))
  | g :: part, g' :: gs, hpart, hgs, h => by
    rw [AreChars, List.forall_mem_cons] at hpart hgs
    obtain ⟨⟨c, rfl⟩, hpart⟩ := hpart
    obtain ⟨⟨c', rfl⟩, hgs⟩ := hgs
    obtain ⟨behind, hbehind⟩ := h
    obtain rfl : c = c' := by
      rw [List.flatMap_cons, List.flatMap_cons, List.append_assoc] at hbehind
      exact utf8EncodeChar_inj hbehind
    rw [List.flatMap_cons, List.flatMap_cons, List.append_assoc,
      List.append_cancel_left_eq] at hbehind
    exact (List.prefix_cons_inj _).2 (isPrefix_of_bytes hpart hgs ⟨behind, hbehind⟩)

/-- A character does not begin inside another one: the bytes there are no first bytes. -/
theorem not_isPrefix_drop {c c' : Char} {t t' : Text} {offset : Nat} (hpos : 0 < offset)
    (hlt : offset < (String.utf8EncodeChar c').length) :
    ¬ String.utf8EncodeChar c ++ t <+: (String.utf8EncodeChar c' ++ t').drop offset := by
  intro h
  have hzero : 0 < (String.utf8EncodeChar c).length :=
    List.length_pos_iff.2 String.utf8EncodeChar_ne_nil
  have hbyte : (String.utf8EncodeChar c)[0] = (String.utf8EncodeChar c')[offset] := by
    obtain ⟨behind, hbehind⟩ := h
    have hget := congrArg (·[0]?) hbehind
    rwa [List.append_assoc, List.getElem?_append_left hzero, List.getElem?_drop, Nat.add_zero,
      List.getElem?_append_left hlt, List.getElem?_eq_getElem hzero, List.getElem?_eq_getElem hlt,
      Option.some.injEq] at hget
  have hfirst := UInt8.isUTF8FirstByte_getElem_zero_utf8EncodeChar (c := c)
  rw [hbyte, UInt8.isUTF8FirstByte_getElem_utf8EncodeChar] at hfirst
  omega

/-- **Where the bytes of characters occur**, these characters stand. -/
theorem exists_glyphs {part : List Glyph} (hne : part ≠ []) (hpart : AreChars part) :
    ∀ {gs : List Glyph}, AreChars gs → ∀ {offset : Nat},
      OccursAt (gs.flatMap Glyph.bytes) (part.flatMap Glyph.bytes) offset →
        ∃ before after, gs = before ++ (part ++ after) ∧
          (before.flatMap Glyph.bytes).length = offset
  | [], _, offset, h => by
    rw [OccursAt, List.flatMap_nil, List.drop_nil, List.prefix_nil] at h
    exact absurd h (flatMap_bytes_ne_nil hne)
  | g :: gs, hgs, offset, h => by
    rcases Nat.eq_zero_or_pos offset with rfl | hpos
    · obtain ⟨after, hafter⟩ := isPrefix_of_bytes hpart hgs h
      exact ⟨[], after, hafter.symm, rfl⟩
    rw [AreChars, List.forall_mem_cons] at hgs
    obtain ⟨⟨c, rfl⟩, hgs⟩ := hgs
    rw [List.flatMap_cons] at h
    by_cases hinside : offset < (String.utf8EncodeChar c).length
    · obtain ⟨g, part, rfl⟩ := List.exists_cons_of_ne_nil hne
      obtain ⟨c', rfl⟩ := hpart g List.mem_cons_self
      exact absurd h (not_isPrefix_drop hpos hinside)
    · obtain ⟨rest, rfl⟩ := Nat.exists_eq_add_of_le (Nat.le_of_not_lt hinside)
      have hrest : OccursAt (gs.flatMap Glyph.bytes) (part.flatMap Glyph.bytes) rest := by
        rwa [OccursAt, Glyph.bytes, List.drop_length_add_append] at h
      obtain ⟨before, after, hgs, hlength⟩ := exists_glyphs hne hpart hgs hrest
      refine ⟨.char c :: before, after, by rw [hgs, List.cons_append], ?_⟩
      rw [List.flatMap_cons, List.length_append, hlength, Glyph.bytes]

section
variable {gs before run after : List Glyph}

/-- A field stands behind the glyphs before it. -/
theorem Cut.occurs_run (h : Cut gs before run after) :
    OccursAt (gs.flatMap Glyph.bytes) (run.flatMap Glyph.bytes)
      (before.flatMap Glyph.bytes).length := by
  rw [OccursAt, h.glyphs, List.flatMap_append, List.drop_left, List.flatMap_append]
  exact List.prefix_append _ _

/-- Characters without a blank that occur before a field stand before it. They cannot reach into
the field, since a blank comes before that. -/
theorem Cut.isInfix_before (h : Cut gs before run after) (hgs : AreChars gs) {part : List Glyph}
    (hne : part ≠ []) (hpart : part ⊆ run) {offset : Nat}
    (hoccurs : OccursAt (gs.flatMap Glyph.bytes) (part.flatMap Glyph.bytes) offset)
    (hlt : offset < (before.flatMap Glyph.bytes).length) : part <:+: before := by
  have hchars : AreChars part := fun g hg => hgs g (by rw [h.glyphs]; simp [hpart hg])
  obtain ⟨front, behind, heq, hlength⟩ := exists_glyphs hne hchars hgs hoccurs
  rw [h.glyphs] at heq
  rcases List.append_eq_append_iff.1 heq with ⟨middle, rfl, -⟩ | ⟨middle, rfl, hmiddle⟩
  · rw [List.flatMap_append, List.length_append] at hlength
    omega
  rcases List.append_eq_append_iff.1 hmiddle with ⟨tail, htail, -⟩ | ⟨tail, rfl, -⟩
  · exact ⟨front, tail, by rw [htail, List.append_assoc]⟩
  · -- the characters would reach up to the blank before the field
    have hmiddle : middle ≠ [] := by
      rintro rfl
      rw [List.append_nil, hlength] at hlt
      exact Nat.lt_irrefl _ hlt
    obtain ⟨init, last, rfl⟩ : ∃ init last, middle = init ++ [last] :=
      ⟨_, _, (List.dropLast_concat_getLast hmiddle).symm⟩
    have hblank := h.behind_blank last (by rw [← List.append_assoc, List.getLast?_concat])
    rw [h.isBlank_run last (hpart (by simp))] at hblank
    exact absurd hblank Bool.false_ne_true

/-- A part of a field before another one occurs before that. -/
theorem Cut.occurs_of_mem (h : Cut gs before run after) {field text : Text} (hne : text ≠ [])
    (hfield : field ∈ fieldsOf before) (hlies : text <:+: field) :
    ∃ offset < (before.flatMap Glyph.bytes).length,
      OccursAt (gs.flatMap Glyph.bytes) text offset := by
  obtain ⟨-, part, hpart, -, rfl⟩ := mem_fieldsOf hfield
  obtain ⟨front, behind, hbefore⟩ := hlies.trans (flatMap_bytes_isInfix hpart)
  refine ⟨front.length, ?_, ?_⟩
  · have hpos := List.length_pos_iff.2 hne
    rw [← hbefore, List.length_append, List.length_append]
    omega
  · rw [OccursAt, h.glyphs, List.flatMap_append, ← hbefore, List.append_assoc, List.append_assoc,
      List.drop_left]
    exact List.prefix_append _ _

end

end SicXe.Text
