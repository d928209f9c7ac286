import SicXe.Text.Lines

/-!
# Cutting texts

* `split_of_not_mem`, `split_append_cons`: how a text is cut at a separator.
* `split_eq_cons`: the first part has no separator, and the others come from what stands behind it.
* `not_mem_of_mem_split`: no part has a separator.
* `rawLines_isPrefix`: lines are parts between line feeds.
* `rawLines_flatMap`, `lines_flatMap`: lines that were written one by one are read back.
* `trimEnd_isPrefix`, `trimEnd_cons`: trimming the end keeps a beginning.
* `trimEnd_append_replicate`: what was filled up is trimmed.
* `Input.lines_eq`, `Input.lines_of_short`: what is delivered, up to the first line that is too
  long.
* `Input.length_le_of_mem_lines`, `Input.lineFeed_not_mem_lines`: lines are short, and each is one
  line.
-/

namespace SicXe

namespace Text

theorem split_ne_nil (separator : UInt8) (t : Text) : split separator t ≠ [] := by
  cases t with
  | nil => exact List.cons_ne_nil _ _
  | cons b t =>
    rw [split, List.foldr_cons]
    split
    · exact List.cons_ne_nil _ _
    · split <;> exact List.cons_ne_nil _ _

section
variable {separator : UInt8}

theorem split_cons_self (t : Text) : split separator (separator :: t) = [] :: split separator t :=
  if_pos rfl

theorem split_cons_of_ne {b : UInt8} (h : b ≠ separator) {t part : Text} {rest : List Text}
    (ht : split separator t = part :: rest) :
    split separator (b :: t) = (b :: part) :: rest := by
  rw [split] at ht
  rw [split, List.foldr_cons, if_neg h, ht]

theorem split_of_not_mem : ∀ {part : Text}, separator ∉ part → split separator part = [part]
  | [], _ => rfl
  | b :: part, h => by
    rw [List.mem_cons, not_or] at h
    exact split_cons_of_ne (Ne.symm h.1) (split_of_not_mem h.2)

theorem split_append_cons : ∀ {part : Text}, separator ∉ part → ∀ t : Text,
    split separator (part ++ separator :: t) = part :: split separator t
  | [], _, t => split_cons_self t
  | b :: part, h, t => by
    rw [List.mem_cons, not_or] at h
    exact split_cons_of_ne (Ne.symm h.1) (split_append_cons h.2 t)

/-- **The first part** of a text: it has no separator; either it is the whole text, or a separator
and the other parts follow it. -/
theorem split_eq_cons : ∀ {t part : Text} {rest : List Text},
    split separator t = part :: rest →
    separator ∉ part ∧ (t = part ∧ rest = [] ∨
      ∃ behind, t = part ++ separator :: behind ∧ rest = split separator behind)
  | [], part, rest, h => by
    cases h
    exact ⟨List.not_mem_nil, .inl ⟨rfl, rfl⟩⟩
  | b :: t, part, rest, h => by
    by_cases hb : b = separator
    · subst hb
      rw [split_cons_self] at h
      cases h
      exact ⟨List.not_mem_nil, .inr ⟨t, rfl, rfl⟩⟩
    · obtain ⟨first, others, ht⟩ := List.exists_cons_of_ne_nil (split_ne_nil separator t)
      rw [split_cons_of_ne hb ht] at h
      cases h
      obtain ⟨hmem, hcases⟩ := split_eq_cons ht
      refine ⟨by simp [hmem, Ne.symm hb], ?_⟩
      rcases hcases with ⟨rfl, rfl⟩ | ⟨behind, rfl, rfl⟩
      · exact .inl ⟨rfl, rfl⟩
      · exact .inr ⟨behind, rfl, rfl⟩

theorem not_mem_of_mem_split : ∀ {t part : Text},
    part ∈ split separator t → separator ∉ part
  | [], part, h => by
    rw [List.mem_singleton.1 h]
    exact List.not_mem_nil
  | b :: t, part, h => by
    obtain ⟨first, others, ht⟩ := List.exists_cons_of_ne_nil (split_ne_nil separator t)
    have ih (part : Text) (hpart : part ∈ first :: others) : separator ∉ part :=
      not_mem_of_mem_split (ht ▸ hpart)
    by_cases hb : b = separator
    · subst hb
      rw [split_cons_self, ht] at h
      rcases List.mem_cons.1 h with rfl | h
      · exact List.not_mem_nil
      · exact ih part h
    · rw [split_cons_of_ne hb ht] at h
      rcases List.mem_cons.1 h with rfl | h
      · rw [List.mem_cons, not_or]
        exact ⟨Ne.symm hb, ih first List.mem_cons_self⟩
      · exact ih part (List.mem_cons_of_mem _ h)

end

/-! ## Lines -/

theorem split_flatMap : ∀ {lines : List Text}, (∀ line ∈ lines, lineFeed ∉ line) →
    split lineFeed (lines.flatMap (· ++ [lineFeed])) = lines ++ [[]]
  | [], _ => rfl
  | line :: lines, h => by
    rw [List.forall_mem_cons] at h
    rw [List.flatMap_cons, List.append_assoc, List.singleton_append, split_append_cons h.1,
      split_flatMap h.2, List.cons_append]

/-- **Lines are read back** from their texts with a line feed behind each. -/
theorem rawLines_flatMap {lines : List Text} (h : ∀ line ∈ lines, lineFeed ∉ line) :
    rawLines (lines.flatMap (· ++ [lineFeed])) = lines := by
  rw [rawLines, split_flatMap h]
  simp

/-- The lines are the parts between line feeds; an empty part at the very end is no line. -/
theorem rawLines_isPrefix (t : Text) : rawLines t <+: split lineFeed t := by
  unfold rawLines
  dsimp only
  split
  · exact List.dropLast_prefix _
  · exact List.prefix_refl _

theorem lineFeed_not_mem_firstLine (t : Text) : lineFeed ∉ t.firstLine := by
  intro h
  have := List.all_eq_true.1 List.all_takeWhile _ h
  simp at this

/-! ## Ends -/

theorem trimEnd_isPrefix (p : UInt8 → Bool) (t : Text) : trimEnd p t <+: t := by
  have := List.reverse_prefix.2 (List.dropWhile_suffix p (l := t.reverse))
  rwa [List.reverse_reverse] at this

theorem trimEnd_cons {p : UInt8 → Bool} {b : UInt8} (h : p b = false) (t : Text) :
    trimEnd p (b :: t) = b :: trimEnd p t := by
  rw [trimEnd, trimEnd, List.reverse_cons, List.dropWhile_append]
  split
  case isTrue hempty =>
    rw [List.isEmpty_iff.1 hempty]
    simp [h]
  case isFalse => simp

theorem trimEnd_append_replicate {p : UInt8 → Bool} {b : UInt8} (hb : p b = true) {t : Text}
    (ht : ∀ c ∈ t, p c = false) (count : Nat) :
    trimEnd p (t ++ List.replicate count b) = t := by
  have hdrop : ∀ k, (List.replicate k b ++ t.reverse).dropWhile p = t.reverse := by
    intro k
    induction k with
    | zero =>
      cases hr : t.reverse with
      | nil => rfl
      | cons c r =>
        have : c ∈ t := List.mem_reverse.1 (by rw [hr]; exact List.mem_cons_self)
        simp [ht c this]
    | succ k ih => simpa [List.replicate_succ, hb] using ih
  rw [trimEnd, List.reverse_append, List.reverse_replicate, hdrop, List.reverse_reverse]

/-- A text of one line. -/
def OneLine (t : Text) : Prop := ∀ b ∈ t, b ≠ lineFeed ∧ b ≠ carriageReturn

theorem oneLine_append {t u : Text} : OneLine (t ++ u) ↔ OneLine t ∧ OneLine u :=
  List.forall_mem_append

theorem OneLine.trimReturns {t : Text} (h : OneLine t) : t.trimReturns = t := by
  have hkeep : ∀ b ∈ t, (b == carriageReturn) = false := fun b hb =>
    beq_eq_false_iff_ne.2 (h b hb).2
  have h := trimEnd_append_replicate (p := (· == carriageReturn)) (b := carriageReturn) rfl hkeep 0
  rwa [List.replicate_zero, List.append_nil] at h

end Text

/-- Lines of moderate length are delivered as they are. -/
theorem Input.lines_flatMap {lines : List Text} (hline : ∀ line ∈ lines, line.OneLine)
    (hlen : ∀ line ∈ lines, line.length ≤ Text.maxLine) :
    Input.lines { text := lines.flatMap (· ++ [Text.lineFeed]) } = ⟨lines, none⟩ := by
  have hfeed : ∀ line ∈ lines, Text.lineFeed ∉ line := fun line hm hb => (hline line hm _ hb).1 rfl
  have hfit : lines.takeWhile (·.length ≤ Text.maxLine) = lines := by
    rw [← List.append_nil lines,
      List.takeWhile_append_of_pos fun line hm => decide_eq_true (hlen line hm), List.takeWhile_nil]
  rw [Input.lines]
  dsimp only
  rw [Text.rawLines_flatMap hfeed, hfit, if_pos rfl,
    List.map_congr_left fun line hm => (hline line hm).trimReturns, List.map_id']

/-- Lines that are short enough, up to the first that is not. -/
theorem Text.exists_cut (lines : List Text) : ∃ fit behind, lines = fit ++ behind ∧
    (∀ line ∈ fit, line.length ≤ Text.maxLine) ∧
    ∀ line ∈ behind.head?, Text.maxLine < line.length := by
  refine ⟨_, _, (List.takeWhile_append_dropWhile (p := (·.length ≤ Text.maxLine))).symm, ?_, ?_⟩
  · exact fun line hline => of_decide_eq_true (List.all_eq_true.1 List.all_takeWhile line hline)
  · intro line hline
    have hnot := List.head?_dropWhile_not (·.length ≤ Text.maxLine) lines
    rw [Option.mem_def.1 hline] at hnot
    simpa using hnot

/-- What is delivered of lines with such a cut. -/
theorem Input.lines_eq {input : Input} {fit behind : List Text}
    (hraw : input.text.rawLines = fit ++ behind) (hfit : ∀ line ∈ fit, line.length ≤ Text.maxLine)
    (hbehind : ∀ line ∈ behind.head?, Text.maxLine < line.length) :
    input.lines =
      ⟨fit.map Text.trimReturns, if behind = [] then input.failure else some .tooLong⟩ := by
  have htake : input.text.rawLines.takeWhile (·.length ≤ Text.maxLine) = fit := by
    rw [hraw, List.takeWhile_append_of_pos fun line hline => decide_eq_true (hfit line hline)]
    cases behind with
    | nil => rw [List.takeWhile_nil, List.append_nil]
    | cons line rest =>
      have hlong := hbehind line rfl
      rw [List.takeWhile_cons_of_neg (by simpa using hlong), List.append_nil]
  rw [Input.lines, htake, hraw, List.length_append]
  cases behind with
  | nil => simp
  | cons line rest => simp

/-- Short lines at the beginning are delivered, whatever stands behind them. -/
theorem Input.lines_of_short {input : Input} {count : Nat}
    (h : ∀ line ∈ input.text.rawLines.take count, line.length ≤ Text.maxLine) :
    ∃ rest, input.lines.lines =
      (input.text.rawLines.take count).map Text.trimReturns ++ rest := by
  refine ⟨((input.text.rawLines.drop count).takeWhile (·.length ≤ Text.maxLine)).map
    Text.trimReturns, ?_⟩
  have hfit : ∀ line ∈ input.text.rawLines.take count, decide (line.length ≤ Text.maxLine) = true :=
    fun line hline => decide_eq_true (h line hline)
  rw [← List.map_append, ← List.takeWhile_append_of_pos hfit, List.take_append_drop]
  rfl

theorem Input.length_le_of_mem_lines {input : Input} {line : Text} (h : line ∈ input.lines.lines) :
    line.length ≤ Text.maxLine := by
  obtain ⟨raw, hraw, rfl⟩ := List.mem_map.1 h
  have hfit : raw.length ≤ Text.maxLine :=
    of_decide_eq_true (List.all_eq_true.1 List.all_takeWhile raw hraw)
  exact Nat.le_trans (Text.trimEnd_isPrefix _ raw).length_le hfit

theorem Input.lineFeed_not_mem_lines {input : Input} {line : Text}
    (h : line ∈ input.lines.lines) : Text.lineFeed ∉ line := by
  obtain ⟨raw, hraw, rfl⟩ := List.mem_map.1 h
  have hsplit : raw ∈ input.text.split Text.lineFeed :=
    (Text.rawLines_isPrefix _).subset ((List.takeWhile_sublist _).subset hraw)
  intro hfeed
  exact Text.not_mem_of_mem_split hsplit ((Text.trimEnd_isPrefix _ raw).subset hfeed)

end SicXe
