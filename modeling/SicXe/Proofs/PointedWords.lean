import SicXe.Editor.Hover

/-!
# The word at a place of a line

* `Editor.PointsBeside`: the places at which there is no word.
* `Editor.Pointed`: what the word at any other place is, in terms of the positions of the line alone.
* `Editor.parts_of_wordAt`: the word, the marks in front of it and the text around them put together
  are the line.
* `Editor.wordAt_pointed`: what is found is that word.

A word may end before the place that is pointed at, at a comma, and it may begin behind that place,
at a mark.
-/

namespace SicXe.Editor

/-! ## Bytes -/

/-- The bytes on which there is no word. -/
def blanks : Text := " \t\r"

/-- The bytes between words. -/
def delimiters : Text := " \t\r,"

/-- The bytes in front of an immediate or indirect operand. -/
def operandMarks : Text := "#@"

variable {b : UInt8} {t word : Text} {column : Nat}

theorem isFieldBreak_iff : isFieldBreak b = true ↔ b ∈ blanks := by
  have hblanks : blanks = [Text.blank, Text.tab, Text.carriageReturn] := rfl
  simp [isFieldBreak, hblanks, or_assoc]

theorem isWordBreak_iff : isWordBreak b = true ↔ b ∈ delimiters := by
  have hdelimiters : delimiters = blanks ++ [Text.comma] := rfl
  simp [isWordBreak, isFieldBreak_iff, hdelimiters]

theorem isOperandMark_iff : isOperandMark b = true ↔ b ∈ operandMarks := by
  have hmarks : operandMarks = [0x23, 0x40] := rfl
  simp [isOperandMark, hmarks]

/-! ## Places -/

/-- The place is outside of the line or on a blank. -/
def PointsBeside (t : Text) (character : Int) : Prop :=
  character < 0 ∨ t.length ≤ character ∨ ∃ b ∈ blanks, t[character.toNat]? = some b

/-- The word at a column of a line, between two of its positions. The position `left` is the one
behind the nearest delimiter before the column, or the beginning of the line. -/
structure Pointed (t : Text) (column left start stop : Nat) (word : Text) : Prop where
  left_le : left ≤ column
  delimited : left = 0 ∨ ∃ b ∈ delimiters, t[left - 1]? = some b
  nearest : ∀ i, left ≤ i → i < column → ∀ b ∈ delimiters, t[i]? ≠ some b
  left_le_start : left ≤ start
  marks : ∀ i, left ≤ i → i < start → ∃ b ∈ operandMarks, t[i]? = some b
  start_le : start ≤ stop
  column_le : column ≤ stop
  stop_le : stop ≤ t.length
  text : word = (t.take stop).drop start
  unbroken : ∀ b ∈ word, b ∉ delimiters
  unmarked : ∀ b ∈ word.head?, b ∉ operandMarks
  ended : stop = t.length ∨ ∃ b ∈ delimiters, t[stop]? = some b

/-! ## The parts of a line -/

/-- What the word at a column leaves of a line: the text before it, with the marks apart, and the text
behind it. -/
structure Parts (t : Text) (column : Nat) (front marks word rest : Text) : Prop where
  line_eq : t = front ++ (marks ++ (word ++ rest))
  front_le : front.length ≤ column
  column_le : column ≤ front.length + (marks.length + word.length)
  front_end : ∀ b ∈ front.getLast?, b ∈ delimiters
  rest_head : ∀ b ∈ rest.head?, b ∈ delimiters
  unbroken : ∀ b ∈ marks ++ word, b ∉ delimiters
  marked : ∀ b ∈ marks, b ∈ operandMarks
  unmarked : ∀ b ∈ word.head?, b ∉ operandMarks

theorem not_of_head?_dropWhile {p : UInt8 → Bool} :
    ∀ b ∈ (t.dropWhile p).head?, p b = false := by
  intro b hb
  have h := List.head?_dropWhile_not p t
  rw [hb] at h
  simpa using h

/-- A text up to the bytes at its end that satisfy `p`. -/
theorem exists_append_takeWhile_reverse (p : UInt8 → Bool) (t : Text) :
    ∃ front, t = front ++ (t.reverse.takeWhile p).reverse ∧ ∀ b ∈ front.getLast?, p b = false := by
  refine ⟨(t.reverse.dropWhile p).reverse, ?_, ?_⟩
  · rw [← List.reverse_append, List.takeWhile_append_dropWhile, List.reverse_reverse]
  · rw [List.getLast?_reverse]
    exact not_of_head?_dropWhile

theorem not_mem_delimiters_of_mem_takeWhile
    (h : b ∈ t.takeWhile (!isWordBreak ·)) : b ∉ delimiters := by
  have hword := List.all_eq_true.1 (List.all_takeWhile (p := (!isWordBreak ·))) b h
  rw [← isWordBreak_iff, Bool.not_eq_true]
  simpa using hword

/-- A line is cut at the delimiters on both sides of a column. -/
theorem exists_cut (t : Text) (column : Nat) :
    ∃ front rest,
      t.take column =
        front ++ ((t.take column).reverse.takeWhile (!isWordBreak ·)).reverse ∧
      t.drop column = (t.drop column).takeWhile (!isWordBreak ·) ++ rest ∧
      (∀ b ∈ front.getLast?, b ∈ delimiters) ∧ ∀ b ∈ rest.head?, b ∈ delimiters := by
  have hdelimiter {b : UInt8} (h : (!isWordBreak b) = false) : b ∈ delimiters :=
    isWordBreak_iff.1 (by simpa using h)
  obtain ⟨front, hfront, hend⟩ :=
    exists_append_takeWhile_reverse (!isWordBreak ·) (t.take column)
  exact ⟨front, _, hfront, List.takeWhile_append_dropWhile.symm,
    fun b hb => hdelimiter (hend b hb), fun b hb => hdelimiter (not_of_head?_dropWhile b hb)⟩

theorem itemAt?_natCast (t : Text) (column : Nat) : itemAt? t column = t[column]? := by
  rw [itemAt?, if_neg (by omega), Int.toNat_natCast]

/-- **The parts of a line** around the word that is found at a column. -/
theorem parts_of_wordAt (hb : t[column]? = some b) (hblank : b ∉ blanks) :
    ∃ front marks word rest, Parts t column front marks word rest ∧
      wordAt t column = ⟨word, (front.length + marks.length : Nat),
        (front.length + (marks.length + word.length) : Nat)⟩ := by
  have hcolumn : (t.take column).length = column :=
    List.length_take_of_le (Nat.le_of_lt (List.getElem?_eq_some_iff.1 hb).1)
  have hfound : itemAt? t column = some b := (itemAt?_natCast t column).trans hb
  have hbreak : isFieldBreak b = false := by rwa [← Bool.not_eq_true, isFieldBreak_iff]
  obtain ⟨front, rest, hfront, hrest, hend, hhead⟩ := exists_cut t column
  have hbefore : ∀ b ∈ ((t.take column).reverse.takeWhile (!isWordBreak ·)).reverse,
      b ∉ delimiters :=
    fun b hb => not_mem_delimiters_of_mem_takeWhile (List.mem_reverse.1 hb)
  have hbehind : ∀ b ∈ (t.drop column).takeWhile (!isWordBreak ·), b ∉ delimiters :=
    fun b hb => not_mem_delimiters_of_mem_takeWhile hb
  unfold wordAt
  rw [hfound]
  dsimp only
  rw [hbreak, if_neg Bool.false_ne_true, Int.toNat_natCast]
  generalize ((t.take column).reverse.takeWhile (!isWordBreak ·)).reverse = before at *
  generalize (t.drop column).takeWhile (!isWordBreak ·) = behind at *
  -- the marks are the first bytes of what stands between the delimiters
  have hmarked := List.takeWhile_append_dropWhile (p := isOperandMark) (l := before ++ behind)
  have hlength := congrArg List.length hmarked
  rw [hfront, List.length_append] at hcolumn
  rw [List.length_append, List.length_append] at hlength
  refine ⟨front, (before ++ behind).takeWhile isOperandMark,
    (before ++ behind).dropWhile isOperandMark, rest, ?_, ?_⟩
  · refine {
      line_eq := ?_
      front_le := by omega
      column_le := by omega
      front_end := hend
      rest_head := hhead
      unbroken := ?_
      marked := ?_
      unmarked := ?_ }
    · calc t = t.take column ++ t.drop column := (List.take_append_drop ..).symm
        _ = front ++ ((before ++ behind) ++ rest) := by rw [hfront, hrest]; simp
        _ = _ := by rw [← List.append_assoc (List.takeWhile ..), hmarked]
    · rw [hmarked]
      intro b hb
      rcases List.mem_append.1 hb with hb | hb
      · exact hbefore b hb
      · exact hbehind b hb
    · intro b hb
      exact isOperandMark_iff.1 (List.all_eq_true.1 List.all_takeWhile b hb)
    · intro b hb
      rw [← isOperandMark_iff, Bool.not_eq_true]
      exact not_of_head?_dropWhile b hb
  · rw [WordSpan.mk.injEq]
    refine ⟨rfl, ?_, ?_⟩ <;> omega

/-! ## From parts to positions -/

section
variable {front middle marks rest : Text}

/-- The byte at a position within the middle part of a text is a byte of that part. -/
theorem exists_mem_middle {i : Nat} (rest : Text) (hfirst : front.length ≤ i)
    (hlast : i < front.length + middle.length) :
    ∃ b ∈ middle, (front ++ (middle ++ rest))[i]? = some b := by
  have hi : i - front.length < middle.length := by omega
  refine ⟨middle[i - front.length], List.getElem_mem hi, ?_⟩
  rw [List.getElem?_append_right hfirst, List.getElem?_append_left hi,
    List.getElem?_eq_getElem hi]

theorem Parts.pointed (h : Parts t column front marks word rest) :
    Pointed t column front.length (front.length + marks.length)
      (front.length + (marks.length + word.length)) word := by
  obtain ⟨rfl, hfront, hcolumn, hend, hhead, hunbroken, hmarked, hunmarked⟩ := h
  refine {
    left_le := hfront
    delimited := ?_
    nearest := ?_
    left_le_start := by omega
    marks := ?_
    start_le := by omega
    column_le := hcolumn
    stop_le := by simp only [List.length_append]; omega
    text := ?_
    unbroken := fun b hb => hunbroken b (List.mem_append_right _ hb)
    unmarked := hunmarked
    ended := ?_ }
  · cases hlast : front.getLast? with
    | none => exact .inl (List.length_eq_zero_iff.2 (List.getLast?_eq_none_iff.1 hlast))
    | some b =>
      obtain ⟨initial, rfl⟩ := List.getLast?_eq_some_iff.1 hlast
      exact .inr ⟨b, hend b hlast, by simp⟩
  · intro i hleft hi b hdelimiter hb
    have hlast : i < front.length + (marks ++ word).length := by rw [List.length_append]; omega
    obtain ⟨c, hc, hat⟩ := exists_mem_middle rest hleft hlast
    rw [← List.append_assoc marks, hat] at hb
    exact hunbroken c hc (Option.some.inj hb ▸ hdelimiter)
  · intro i hleft hi
    obtain ⟨c, hc, hat⟩ := exists_mem_middle (word ++ rest) hleft hi
    exact ⟨c, hmarked c hc, hat⟩
  · have hline : front ++ (marks ++ (word ++ rest)) = (front ++ marks) ++ word ++ rest := by simp
    rw [hline, List.take_left' (by simp only [List.length_append]; omega),
      List.drop_left' List.length_append]
  · cases rest with
    | nil => exact .inl (by simp)
    | cons b rest =>
      refine .inr ⟨b, hhead b rfl, ?_⟩
      have hline : front ++ (marks ++ (word ++ b :: rest)) =
          (front ++ (marks ++ word)) ++ b :: rest := by simp
      rw [hline, List.getElem?_append_right (by simp)]
      simp

end

/-- **The word at a place of a line.** Beside the text of the line there is none. At every other
place it is the word between the delimiters on both sides, without the marks in front of it, and it
stands where its start and its end say. -/
theorem wordAt_pointed (t : Text) (character : Int) :
    (PointsBeside t character ∧ wordAt t character = ⟨[], character, character⟩) ∨
    (¬ PointsBeside t character ∧ ∃ column left start stop : Nat, character = column ∧
      Pointed t column left start stop (wordAt t character).text ∧
      (wordAt t character).start = start ∧ (wordAt t character).stop = stop) := by
  by_cases hnegative : character < 0
  · exact .inl ⟨.inl hnegative, by simp [wordAt, itemAt?, hnegative]⟩
  obtain ⟨column, rfl⟩ := Int.eq_ofNat_of_zero_le (Int.not_lt.1 hnegative)
  have hitem := itemAt?_natCast t column
  cases hat : t[column]? with
  | none =>
    have hlength : (t.length : Int) ≤ column := by simpa using List.getElem?_eq_none_iff.1 hat
    exact .inl ⟨.inr (.inl hlength), by simp [wordAt, hitem, hat]⟩
  | some b =>
    by_cases hblank : b ∈ blanks
    · refine .inl ⟨.inr (.inr ⟨b, hblank, hat⟩), ?_⟩
      simp [wordAt, hitem, hat, isFieldBreak_iff.2 hblank]
    · have hword : ¬ PointsBeside t column := by
        rintro (h | h | ⟨c, hc, hcat⟩)
        · exact hnegative h
        · have := (List.getElem?_eq_some_iff.1 hat).1
          omega
        · rw [Int.toNat_natCast, hat] at hcat
          exact hblank (Option.some.inj hcat ▸ hc)
      obtain ⟨front, marks, word, rest, hparts, hspan⟩ := parts_of_wordAt hat hblank
      rw [hspan]
      exact .inr ⟨hword, column, _, _, _, rfl, hparts.pointed, rfl, rfl⟩

/-- A word of marks alone is empty, and stands behind the place that is pointed at. -/
example : wordAt "LDA #@,X" 4 = ⟨[], 6, 6⟩ := by decide

end SicXe.Editor
