import SicXe.Assembly
import SicXe.Machine.Loader
import SicXe.Proofs.Cutting

/-!
# Line endings

A carriage return in front of a line feed makes no difference, as long as the line has room for it.

* `Text.withReturns`: the text with a carriage return in front of every line feed.
* `Text.split_withReturns`, `Text.rawLines_withReturns`: its lines are those of the text, each with
  a carriage return behind it, except for a last line that no line feed ends.
* `Input.lines_withReturns`: lines with room for one more byte are delivered as before.
* `lineEndings_irrelevant`: so neither an assembly nor the loading of an object program changes.
-/

namespace SicXe

namespace Text

/-- The text with a carriage return in front of every line feed. -/
def withReturns (t : Text) : Text :=
  t.flatMap fun b => if b = lineFeed then [carriageReturn, lineFeed] else [b]

theorem trimReturns_append_return (line : Text) :
    (line ++ [carriageReturn]).trimReturns = line.trimReturns := by
  simp [trimReturns, trimEnd]

theorem withReturns_cons_lineFeed (t : Text) :
    withReturns (lineFeed :: t) = [carriageReturn] ++ lineFeed :: withReturns t := by
  simp [withReturns]

theorem withReturns_cons {b : UInt8} (h : b ≠ lineFeed) (t : Text) :
    withReturns (b :: t) = b :: withReturns t := by
  simp [withReturns, h]

/-- Every part but the last one gets a carriage return. -/
theorem split_withReturns : ∀ t : Text, ∃ init last, split lineFeed t = init ++ [last] ∧
    split lineFeed t.withReturns = init.map (· ++ [carriageReturn]) ++ [last]
  | [] => ⟨[], [], rfl, rfl⟩
  | b :: t => by
    obtain ⟨init, last, hplain, hreturns⟩ := split_withReturns t
    by_cases hb : b = lineFeed
    · subst hb
      refine ⟨[] :: init, last, ?_, ?_⟩
      · rw [split_cons_self, hplain, List.cons_append]
      · rw [withReturns_cons_lineFeed, split_append_cons (by decide), hreturns]
        rfl
    · rw [withReturns_cons hb]
      cases init with
      | nil => exact ⟨[], b :: last, split_cons_of_ne hb hplain, split_cons_of_ne hb hreturns⟩
      | cons first init =>
        exact ⟨(b :: first) :: init, last, split_cons_of_ne hb hplain,
          split_cons_of_ne hb hreturns⟩

/-- Every line gets a carriage return, except for a last one that no line feed ends. -/
theorem rawLines_withReturns (t : Text) : ∃ ended unended, rawLines t = ended ++ unended ∧
    rawLines t.withReturns = ended.map (· ++ [carriageReturn]) ++ unended := by
  obtain ⟨init, last, hplain, hreturns⟩ := split_withReturns t
  rw [rawLines, rawLines, hplain, hreturns]
  by_cases hlast : last = []
  · exact ⟨init, [], by simp [hlast], by simp [hlast]⟩
  · exact ⟨init, [last], by simp [hlast], by simp [hlast]⟩

/-- Lines with a carriage return more are too long just as those without it, unless that byte is
one too many. -/
theorem takeWhile_returned (unended : List Text) : ∀ {ended : List Text},
    (∀ line ∈ ended, line.length ≠ maxLine) →
    ((ended.map (· ++ [carriageReturn]) ++ unended).takeWhile (·.length ≤ maxLine)).map
        trimReturns =
      ((ended ++ unended).takeWhile (·.length ≤ maxLine)).map trimReturns
  | [], _ => rfl
  | line :: ended, h => by
    rw [List.forall_mem_cons] at h
    have hlength : (line ++ [carriageReturn]).length = line.length + 1 := List.length_append
    rw [List.map_cons, List.cons_append, List.cons_append]
    by_cases hfit : line.length ≤ maxLine
    · have hroom : (line ++ [carriageReturn]).length ≤ maxLine := by
        have := h.1
        omega
      rw [List.takeWhile_cons_of_pos (by simpa using hroom),
        List.takeWhile_cons_of_pos (by simpa using hfit), List.map_cons, List.map_cons,
        trimReturns_append_return, takeWhile_returned unended h.2]
    · have hlong : ¬ (line ++ [carriageReturn]).length ≤ maxLine := by omega
      rw [List.takeWhile_cons_of_neg (by simpa using hlong),
        List.takeWhile_cons_of_neg (by simpa using hfit)]

end Text

/-- **The same lines are delivered**, unless a line has no room for one more byte. -/
theorem Input.lines_withReturns {text : Text}
    (h : ∀ line ∈ text.rawLines, line.length ≠ Text.maxLine) (failure : Option ReadError) :
    Input.lines { text := text.withReturns, failure } = Input.lines { text, failure } := by
  obtain ⟨ended, unended, hplain, hreturns⟩ := Text.rawLines_withReturns text
  have hlines := Text.takeWhile_returned unended fun line hline =>
    h line (by rw [hplain]; exact List.mem_append_left _ hline)
  have hcount := congrArg List.length hlines
  rw [List.length_map, List.length_map] at hcount
  simp only [Input.lines, hplain, hreturns, hlines, hcount, List.length_append, List.length_map]

/-- **Line endings do not matter** for lines with room for a carriage return: the source is read to
its end, the same assembly is made of it, and the same object program is loaded. -/
theorem lineEndings_irrelevant {text : Text}
    (h : ∀ line ∈ text.split Text.lineFeed, line.length ≤ 65534) :
    (∀ mode, ∃ assembly, Assembly.ofInput mode { text } = .ok assembly ∧
      Assembly.ofInput mode { text := text.withReturns } = .ok assembly) ∧
    (∀ mode failure, Assembly.ofInput mode { text := text.withReturns, failure } =
      Assembly.ofInput mode { text, failure }) ∧
    ∀ (machine : Machine) failure, machine.load { text := text.withReturns, failure } =
      machine.load { text, failure } := by
  have hraw : ∀ line ∈ text.rawLines, line.length < Text.maxLine := fun line hline =>
    Nat.lt_succ_of_le (h line ((Text.rawLines_isPrefix text).subset hline))
  have hlines := Input.lines_withReturns fun line hline => Nat.ne_of_lt (hraw line hline)
  have hofInput (mode : Mode) (failure : Option ReadError) :
      Assembly.ofInput mode { text := text.withReturns, failure } =
        Assembly.ofInput mode { text, failure } := by
    rw [Assembly.ofInput, hlines, Assembly.ofInput]
  refine ⟨fun mode => ?_, hofInput, fun machine failure => ?_⟩
  · have hread : Input.lines { text } = _ := Input.lines_eq (List.append_nil _).symm
      (fun line hline => Nat.le_of_lt (hraw line hline)) (by simp)
    have hok : Assembly.ofInput mode { text } =
        .ok (.ofLines mode (Input.lines { text }).lines) := by
      rw [Assembly.ofInput, hread]
      rfl
    exact ⟨_, hok, (hofInput mode none).trans hok⟩
  · rw [Machine.load, hlines, Machine.load]

/-- A source with one carriage return, two of them on a blank line, and none at the end of its last
line. -/
theorem lineEndings_irrelevant_mixed :
    (∀ line ∈ Text.split Text.lineFeed "A WORD 1\r\n\r\r\nLDA A", line.length ≤ 65534) ∧
      Text.withReturns "A WORD 1\r\n\r\r\nLDA A" = "A WORD 1\r\r\n\r\r\r\nLDA A" ∧
      ∃ assembly, Assembly.ofInput .sic { text := "A WORD 1\r\n\r\r\nLDA A" } = .ok assembly ∧
        Assembly.ofInput .sic { text := "A WORD 1\r\r\n\r\r\r\nLDA A" } = .ok assembly := by
  have hshort : ∀ line ∈ Text.split Text.lineFeed "A WORD 1\r\n\r\r\nLDA A",
      line.length ≤ 65534 := by decide
  exact ⟨hshort, by decide, (lineEndings_irrelevant hshort).1 .sic⟩

end SicXe
