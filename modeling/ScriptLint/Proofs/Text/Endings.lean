import Mathlib
import ScriptLint.Proofs.Text.Lines

/-!
Line endings in one spelling.

* `unifyEndings_append_cons`, `unifyEndings_append_plain`, `unifyEndings_append_lineFeed`:
  the endings on both sides of other characters, or of a line feed, are unified on their
  own.
* `eq_of_unifyEndings`: a text without line endings stays as it is.
* `exists_unifyEndings_split`: where the unified text can be cut, the text can be cut too.
* `exists_part_split`: a part of a line can be cut out of a text, however its lines end,
  and replaced by another one.
-/

namespace ScriptLint.Text

variable {text first second later rest part start : List Char} {c : Char} {index : Nat}

/-- Another character stays. -/
lemma unifyEndings_cons (h : c ≠ '\r') :
    unifyEndings (c :: text) = c :: unifyEndings text := by
  rw [unifyEndings]
  · exact fun _ heq _ => h heq
  · exact h

/-- A lone CR becomes LF. -/
lemma unifyEndings_return (h : ∀ rest, text ≠ '\n' :: rest) :
    unifyEndings ('\r' :: text) = '\n' :: unifyEndings text := by
  rw [unifyEndings]
  exact fun rest heq => h rest heq

/-- CR LF becomes LF. -/
lemma unifyEndings_return_feed :
    unifyEndings ('\r' :: '\n' :: rest) = '\n' :: unifyEndings rest := by
  rw [unifyEndings]

lemma length_unifyEndings_le (text : List Char) :
    (unifyEndings text).length ≤ text.length := by
  fun_induction unifyEndings text <;> simp only [List.length_cons, List.length_nil] <;> omega

/-- The endings on both sides of another character are unified on their own. The
induction is along the reading of the first text. -/
lemma unifyEndings_append_cons (hfeed : c ≠ '\n') (hreturn : c ≠ '\r') :
    unifyEndings (text ++ c :: later) = unifyEndings text ++ c :: unifyEndings later := by
  fun_induction unifyEndings text with
  | case1 => exact unifyEndings_cons hreturn
  | case2 rest ih =>
      rw [List.cons_append, List.cons_append, unifyEndings_return_feed, ih, List.cons_append]
  | case3 rest hrest ih =>
      have hlater : ∀ other, rest ++ c :: later ≠ '\n' :: other := by
        intro other heq
        cases rest with
        | nil => exact hfeed (List.cons.inj heq).1
        | cons d rest =>
            obtain ⟨rfl, _⟩ := List.cons.inj heq
            exact hrest rest rfl
      rw [List.cons_append, unifyEndings_return hlater, ih, List.cons_append]
  | case4 d rest _ hd ih =>
      rw [List.cons_append, unifyEndings_cons hd, ih, List.cons_append]

/-- A line feed ends the reading of an ending, unless a CR stands right before it. The
induction is along the reading of the first text. -/
lemma unifyEndings_append_lineFeed (h : text.getLast? ≠ some '\r') :
    unifyEndings (text ++ '\n' :: later) = unifyEndings text ++ '\n' :: unifyEndings later := by
  fun_induction unifyEndings text with
  | case1 => exact unifyEndings_cons (by decide)
  | case2 rest ih =>
      have hrest : rest.getLast? ≠ some '\r' := by
        intro hlast
        rw [List.getLast?_cons, List.getLast?_cons, hlast] at h
        exact h rfl
      rw [List.cons_append, List.cons_append, unifyEndings_return_feed, ih hrest,
        List.cons_append]
  | case3 rest hrest ih =>
      obtain ⟨d, more, rfl⟩ : ∃ d more, rest = d :: more := by
        cases rest with
        | nil => exact absurd rfl h
        | cons d more => exact ⟨d, more, rfl⟩
      have hlater : ∀ other, (d :: more) ++ '\n' :: later ≠ '\n' :: other := by
        intro other heq
        obtain ⟨rfl, _⟩ := List.cons.inj heq
        exact hrest more rfl
      rw [List.cons_append, unifyEndings_return hlater, ih (by rwa [List.getLast?_cons_cons] at h),
        List.cons_append]
  | case4 c rest _ hc ih =>
      have hrest : rest.getLast? ≠ some '\r' := by
        intro hlast
        rw [List.getLast?_cons, hlast] at h
        exact h rfl
      rw [List.cons_append, unifyEndings_cons hc, ih hrest, List.cons_append]

/-- Characters that are no CR stay before a text. -/
lemma unifyEndings_append_left (h : '\r' ∉ part) :
    unifyEndings (part ++ later) = part ++ unifyEndings later := by
  induction part with
  | nil => rfl
  | cons c rest ih =>
      rw [List.mem_cons, not_or] at h
      rw [List.cons_append, unifyEndings_cons (Ne.symm h.1), ih h.2, List.cons_append]

/-- The endings on both sides of a part without line endings are unified on their own. -/
lemma unifyEndings_append_plain (hne : part ≠ []) (hreturn : '\r' ∉ part)
    (hfeed : '\n' ∉ part) :
    unifyEndings (text ++ (part ++ later)) = unifyEndings text ++ (part ++ unifyEndings later) := by
  obtain ⟨c, rest, rfl⟩ := List.exists_cons_of_ne_nil hne
  rw [List.mem_cons, not_or] at hreturn hfeed
  rw [List.cons_append, unifyEndings_append_cons (Ne.symm hfeed.1) (Ne.symm hreturn.1),
    unifyEndings_append_left hreturn.2, List.cons_append]

/-- A text that is left without line endings had none. -/
lemma eq_of_unifyEndings (h : unifyEndings text = later) (hlater : '\n' ∉ later) :
    text = later := by
  subst h
  have hself : '\r' ∉ text → unifyEndings text = text := by
    intro hreturn
    rw [← List.append_nil text, unifyEndings_append_left hreturn]
    rfl
  refine (hself fun hmem => hlater ?_).symm
  clear hlater hself
  fun_induction unifyEndings text with
  | case1 => cases hmem
  | case2 => exact List.mem_cons_self
  | case3 => exact List.mem_cons_self
  | case4 c rest _ hc ih =>
      refine List.mem_cons_of_mem c (ih ?_)
      rcases List.mem_cons.mp hmem with heq | hmem
      · exact absurd heq.symm hc
      · exact hmem

/-- Where the unified text can be cut, the text can be cut too. The induction is along the
reading of the text; a cut in front of it is one of the text itself. -/
lemma exists_unifyEndings_split (h : unifyEndings text = first ++ second) :
    ∃ before after, text = before ++ after ∧ unifyEndings before = first ∧
      unifyEndings after = second := by
  fun_induction unifyEndings text generalizing first with
  | case1 =>
      obtain ⟨rfl, rfl⟩ := List.append_eq_nil_iff.mp h.symm
      exact ⟨[], [], rfl, rfl, rfl⟩
  | case2 rest ih =>
      cases first with
      | nil => exact ⟨[], _, rfl, rfl, unifyEndings_return_feed.trans h⟩
      | cons d more =>
          obtain ⟨rfl, hmore⟩ := List.cons.inj h
          obtain ⟨before, after, rfl, rfl, rfl⟩ := ih hmore
          exact ⟨'\r' :: '\n' :: before, after, rfl, unifyEndings_return_feed, rfl⟩
  | case3 rest hrest ih =>
      cases first with
      | nil => exact ⟨[], _, rfl, rfl, (unifyEndings_return fun other => hrest other).trans h⟩
      | cons d more =>
          obtain ⟨rfl, hmore⟩ := List.cons.inj h
          obtain ⟨before, after, rfl, rfl, rfl⟩ := ih hmore
          refine ⟨'\r' :: before, after, rfl, unifyEndings_return fun other heq => ?_, rfl⟩
          exact hrest (other ++ after) (by rw [heq, List.cons_append])
  | case4 c rest _ hc ih =>
      cases first with
      | nil => exact ⟨[], _, rfl, rfl, (unifyEndings_cons hc).trans h⟩
      | cons d more =>
          obtain ⟨rfl, hmore⟩ := List.cons.inj h
          obtain ⟨before, after, rfl, rfl, rfl⟩ := ih hmore
          exact ⟨c :: before, after, rfl, unifyEndings_cons hc, rfl⟩

/-- **A part of a line** can be cut out of a text, however its lines end, and another part
in its place leaves the rest of the lines as it is. -/
theorem exists_part_split
    (h : (physicalLines (unifyEndings text))[index]? = some (start ++ (part ++ rest))) :
    ∃ before after, text = before ++ (part ++ after) ∧
      physicalLines (unifyEndings before) =
        (physicalLines (unifyEndings text)).take index ++ [start] ∧
      ∀ other, other ≠ [] → '\r' ∉ other → '\n' ∉ other →
        physicalLines (unifyEndings (before ++ (other ++ after))) =
          (physicalLines (unifyEndings text)).take index ++
            (start ++ (other ++ rest)) :: (physicalLines (unifyEndings text)).drop (index + 1) := by
  obtain ⟨early, late, htext, hline, hlines⟩ := exists_line_split h
  rw [List.mem_append, List.mem_append, not_or, not_or] at hline
  obtain ⟨hstart, hpart, hrest⟩ := hline
  have hcut : unifyEndings text = (early ++ start) ++ (part ++ (rest ++ late)) := by
    rw [htext]
    simp only [List.append_assoc]
  obtain ⟨before, behind, hbehind, hbefore, hunified⟩ := exists_unifyEndings_split hcut
  obtain ⟨middle, after, rfl, hmiddle, hafter⟩ := exists_unifyEndings_split hunified
  obtain rfl := eq_of_unifyEndings hmiddle hpart
  refine ⟨before, after, hbehind, ?_, fun other hne hreturn hfeed => ?_⟩
  · rw [hbefore]
    exact (hlines start hstart).1
  · have hother : '\n' ∉ start ++ (other ++ rest) := by
      rw [List.mem_append, List.mem_append, not_or, not_or]
      exact ⟨hstart, hfeed, hrest⟩
    rw [unifyEndings_append_plain hne hreturn hfeed, hbefore, hafter, ← (hlines _ hother).2]
    simp only [List.append_assoc]

end ScriptLint.Text
