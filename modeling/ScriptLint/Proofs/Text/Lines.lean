import Mathlib
import ScriptLint.Text.Blank
import ScriptLint.Text.Lines

/-!
The physical lines of a text and the blanks around a text.

* `physicalLines_eq_splitOnP`: physical lines are what stands between line feeds.
* `physicalLines_eq_singleton`, `physicalLines_append`: the lines of a text without a line
  feed, and of two texts with a line feed in between.
* `exists_first_line`: a text is a line, or begins with one.
* `line_induction`: induction on the lines of a text.
* `length_physicalLines`, `lastLine_append`: how many lines a text has, and the last of
  them.
* `exists_line_split`: a line of a text can be cut out of it and replaced by another one.
-/

namespace ScriptLint.Text

variable {line rest text : List Char}

/-- Physical lines are what stands between line feeds. -/
lemma physicalLines_eq_splitOnP (text : List Char) :
    physicalLines text = text.splitOnP (· == '\n') := by
  induction text with
  | nil => rw [physicalLines_nil, List.splitOnP_nil]
  | cons c rest ih =>
      have hcons : physicalLines (c :: rest) = prependToLines c (physicalLines rest) := rfl
      obtain ⟨first, later, hsplit⟩ :=
        List.exists_cons_of_ne_nil (List.splitOnP_ne_nil (· == '\n') rest)
      rw [hcons, ih, List.splitOnP_cons_eq_if_modifyHead, hsplit, prependToLines]
      by_cases hc : c = '\n' <;> simp [hc]

/-- A text without a line feed is a single line. -/
lemma physicalLines_eq_singleton (h : '\n' ∉ text) : physicalLines text = [text] := by
  rw [physicalLines_eq_splitOnP, List.splitOnP_eq_singleton]
  intro c hc
  rw [beq_eq_false_iff_ne]
  rintro rfl
  exact h hc

/-- A line feed stands between the lines before it and the lines behind it. -/
lemma physicalLines_append (text rest : List Char) :
    physicalLines (text ++ '\n' :: rest) = physicalLines text ++ physicalLines rest := by
  rw [physicalLines_eq_splitOnP, List.splitOnP_append_cons _ _ (by rfl),
    ← physicalLines_eq_splitOnP, ← physicalLines_eq_splitOnP]

/-- A line feed ends the first line. -/
lemma physicalLines_append_lineFeed (h : '\n' ∉ line) :
    physicalLines (line ++ '\n' :: rest) = line :: physicalLines rest := by
  rw [physicalLines_append, physicalLines_eq_singleton h, List.singleton_append]

/-- A text is a line, or begins with a line and a line feed. -/
lemma exists_first_line (text : List Char) :
    '\n' ∉ text ∨ ∃ line rest, '\n' ∉ line ∧ text = line ++ '\n' :: rest := by
  by_cases h : '\n' ∈ text
  · obtain ⟨line, rest, hsplit, hline⟩ := List.eq_append_cons_of_mem h
    exact .inr ⟨line, rest, hline, hsplit⟩
  · exact .inl h

/-- Induction on the lines of a text: it is a line, or a line with a text behind its line
feed. -/
@[elab_as_elim]
theorem line_induction {motive : List Char → Prop}
    (single : ∀ line, '\n' ∉ line → motive line)
    (append : ∀ line rest, '\n' ∉ line → motive rest → motive (line ++ '\n' :: rest))
    (text : List Char) : motive text := by
  induction hlength : text.length using Nat.strong_induction_on generalizing text with
  | _ length ih =>
      rcases exists_first_line text with hline | ⟨line, rest, hline, rfl⟩
      · exact single text hline
      · refine append line rest hline (ih rest.length ?_ rest rfl)
        rw [← hlength, List.length_append, List.length_cons]
        omega

/-- A text has one line more than it has line feeds. -/
lemma length_physicalLines (text : List Char) :
    (physicalLines text).length = text.count '\n' + 1 := by
  induction text using line_induction with
  | single line hline =>
      rw [physicalLines_eq_singleton hline, List.count_eq_zero_of_not_mem hline]
      rfl
  | append line rest hline ih =>
      rw [physicalLines_append_lineFeed hline, List.length_cons, ih, List.count_append,
        List.count_eq_zero_of_not_mem hline, List.count_cons_self, Nat.zero_add]

/-- The last line of a text. -/
def lastLine (text : List Char) : List Char :=
  (physicalLines text).getLast?.getD []

/-- The last line is behind the line feeds. -/
lemma lastLine_append_lineFeed (h : '\n' ∉ line) :
    lastLine (line ++ '\n' :: rest) = lastLine rest := by
  rw [lastLine, physicalLines_append_lineFeed h, lastLine, List.getLast?_cons]
  cases hlines : (physicalLines rest).getLast? with
  | some last => rfl
  | none =>
      have hcount := length_physicalLines rest
      rw [List.getLast?_eq_none_iff.mp hlines] at hcount
      cases hcount

/-- Characters of a line go on with the last line. -/
lemma lastLine_append {part : List Char} (h : '\n' ∉ part) :
    lastLine (text ++ part) = lastLine text ++ part := by
  induction text using line_induction with
  | single line hline =>
      have hwhole : '\n' ∉ line ++ part := by simp [hline, h]
      rw [lastLine, lastLine, physicalLines_eq_singleton hline,
        physicalLines_eq_singleton hwhole]
      rfl
  | append line rest hline ih =>
      rw [List.append_assoc, List.cons_append, lastLine_append_lineFeed hline,
        lastLine_append_lineFeed hline, ih]

/-- A line can be cut out of a text, so that another line in its place, with or without
what follows, leaves the other lines as they are. -/
lemma exists_line_split {index : Nat} (h : (physicalLines text)[index]? = some line) :
    ∃ before after, text = before ++ (line ++ after) ∧ '\n' ∉ line ∧
      ∀ other, '\n' ∉ other →
        physicalLines (before ++ other) = (physicalLines text).take index ++ [other] ∧
          physicalLines (before ++ (other ++ after)) =
            (physicalLines text).take index ++ other :: (physicalLines text).drop (index + 1) := by
  induction index generalizing text with
  | zero =>
      rcases exists_first_line text with hline | ⟨first, rest, hline, rfl⟩
      · rw [physicalLines_eq_singleton hline] at h ⊢
        obtain rfl : text = line := by simpa using h
        refine ⟨[], [], by simp, hline, fun other hother => ?_⟩
        simp [physicalLines_eq_singleton hother]
      · rw [physicalLines_append_lineFeed hline] at h ⊢
        obtain rfl : first = line := by simpa using h
        refine ⟨[], '\n' :: rest, by simp, hline, fun other hother => ?_⟩
        simp [physicalLines_eq_singleton hother, physicalLines_append_lineFeed hother]
  | succ index ih =>
      rcases exists_first_line text with hline | ⟨first, rest, hline, rfl⟩
      · rw [physicalLines_eq_singleton hline] at h
        simp at h
      · rw [physicalLines_append_lineFeed hline] at h ⊢
        obtain ⟨before, after, rfl, hfeed, hlines⟩ := ih h
        refine ⟨first ++ '\n' :: before, after, by simp, hfeed, fun other hother => ?_⟩
        obtain ⟨hcut, hwhole⟩ := hlines other hother
        rw [List.append_assoc, List.cons_append, physicalLines_append_lineFeed hline, hcut,
          List.append_assoc, List.cons_append, physicalLines_append_lineFeed hline, hwhole]
        exact ⟨rfl, rfl⟩

/-- No line is longer than the text. -/
lemma length_le_of_mem_physicalLines (h : line ∈ physicalLines text) :
    line.length ≤ text.length := by
  obtain ⟨index, hindex⟩ := List.mem_iff_getElem?.mp h
  obtain ⟨before, after, rfl, -⟩ := exists_line_split hindex
  rw [List.length_append, List.length_append]
  omega

end ScriptLint.Text
