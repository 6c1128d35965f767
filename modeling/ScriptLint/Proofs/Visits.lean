import Mathlib
import ScriptLint.Analysis

/-!
A check on its own, told the lines of a script one by one and then its end.

* `Visit`, `Checker.visit`: what a check is told, and its answer.
* `Checker.after`, `Checker.findings`: the check after several visits, and all
  that it has found on the way; `Checker.mem_findings_iff` finds the visit of a
  finding.
* `LineAfter`, `Checker.mem_findings_script_iff`: over a script, a finding comes
  from one of its lines or from its end.
* `mem_allFindings_iff`: checks do not see each other, so the findings on a
  script are those of the four checks, each visited on its own.
-/

namespace ScriptLint

/-- What a check is told: a line of the script, or that the script ends. -/
inductive Visit where
  | line (line : TokenLine)
  | finish
deriving DecidableEq, Repr

/-- The visits of a script: its lines in order, then its end. -/
def Visit.script (lines : List TokenLine) : List Visit :=
  lines.map .line ++ [.finish]

/-! ### Lines of a script -/

/-- The line stands in the script right after the lines `before`. -/
def LineAfter (lines before : List TokenLine) (line : TokenLine) : Prop :=
  ∃ later, lines = before ++ line :: later

section LineAfter

variable {lines rest before : List TokenLine} {first line : TokenLine}

lemma LineAfter.mem (h : LineAfter lines before line) : line ∈ lines := by
  obtain ⟨later, rfl⟩ := h
  exact List.mem_append_right _ List.mem_cons_self

lemma exists_lineAfter (h : line ∈ lines) : ∃ before, LineAfter lines before line := by
  obtain ⟨before, later, hsplit⟩ := List.append_of_mem h
  exact ⟨before, later, hsplit⟩

@[simp] lemma not_lineAfter_nil : ¬ LineAfter [] before line := by
  simp [LineAfter]

/-- A line of a longer script is its first one, or comes later. -/
lemma lineAfter_cons :
    LineAfter (first :: rest) before line ↔
      (before = [] ∧ line = first) ∨
        ∃ early, before = first :: early ∧ LineAfter rest early line := by
  constructor
  · rintro ⟨later, hsplit⟩
    cases before with
    | nil =>
        obtain ⟨rfl, rfl⟩ := List.cons.inj hsplit
        exact .inl ⟨rfl, rfl⟩
    | cons other early =>
        obtain ⟨rfl, rfl⟩ := List.cons.inj hsplit
        exact .inr ⟨early, rfl, later, rfl⟩
  · rintro (⟨rfl, rfl⟩ | ⟨early, rfl, later, rfl⟩)
    · exact ⟨rest, rfl⟩
    · exact ⟨later, rfl⟩

end LineAfter

/-! ### Visits -/

namespace Checker

variable (catalogue : Catalogue)

/-- One visit: the check afterwards, and what it says. -/
def visit (checker : Checker) : Visit → Checker × Notes
  | .line line => checker.line catalogue line.number line.tokens
  | .finish => (checker.finish.1, ⟨checker.finish.2, []⟩)

/-- The check after several visits. -/
def after : Checker → List Visit → Checker
  | checker, [] => checker
  | checker, first :: rest => after (checker.visit catalogue first).1 rest

/-- All that a check finds in several visits, in order. -/
def findings : Checker → List Visit → List Finding
  | _, [] => []
  | checker, first :: rest =>
    (checker.visit catalogue first).2.findings ++
      findings (checker.visit catalogue first).1 rest

variable {catalogue}

@[simp] lemma after_nil (checker : Checker) : checker.after catalogue [] = checker := rfl

@[simp] lemma after_cons (checker : Checker) (first : Visit) (rest : List Visit) :
    checker.after catalogue (first :: rest) =
      (checker.visit catalogue first).1.after catalogue rest := rfl

lemma after_append (checker : Checker) (early late : List Visit) :
    checker.after catalogue (early ++ late) =
      (checker.after catalogue early).after catalogue late := by
  induction early generalizing checker with
  | nil => rfl
  | cons first rest ih => exact ih (checker.visit catalogue first).1

@[simp] lemma findings_nil (checker : Checker) : checker.findings catalogue [] = [] := rfl

@[simp] lemma findings_cons (checker : Checker) (first : Visit) (rest : List Visit) :
    checker.findings catalogue (first :: rest) =
      (checker.visit catalogue first).2.findings ++
        (checker.visit catalogue first).1.findings catalogue rest := rfl

lemma findings_append (checker : Checker) (early late : List Visit) :
    checker.findings catalogue (early ++ late) =
      checker.findings catalogue early ++
        (checker.after catalogue early).findings catalogue late := by
  induction early generalizing checker with
  | nil => rfl
  | cons first rest ih =>
      rw [List.cons_append, findings_cons, findings_cons, ih, List.append_assoc]
      rfl

/-- A finding comes from one of the visits, made to the check as it is after the
visits before. -/
theorem mem_findings_iff {checker : Checker} {visits : List Visit} {finding : Finding} :
    finding ∈ checker.findings catalogue visits ↔
      ∃ (early : List Visit) (visit : Visit) (late : List Visit),
        visits = early ++ visit :: late ∧
        finding ∈ ((checker.after catalogue early).visit catalogue visit).2.findings := by
  constructor
  · intro h
    induction visits generalizing checker with
    | nil => simp at h
    | cons first rest ih =>
        rcases List.mem_append.mp h with h | h
        · exact ⟨[], first, rest, rfl, h⟩
        · obtain ⟨early, visit, late, rfl, hmem⟩ := ih h
          exact ⟨first :: early, visit, late, rfl, hmem⟩
  · rintro ⟨early, visit, late, rfl, h⟩
    rw [findings_append]
    exact List.mem_append_right _ (List.mem_append_left _ h)

/-- A finding on a script comes from one of its lines, seen by the check as the
lines before left it, or from the end of the script. -/
theorem mem_findings_script_iff {checker : Checker} {lines : List TokenLine}
    {finding : Finding} :
    finding ∈ checker.findings catalogue (Visit.script lines) ↔
      (∃ before line, LineAfter lines before line ∧
        finding ∈ ((checker.after catalogue (before.map .line)).line catalogue
          line.number line.tokens).2.findings) ∨
      finding ∈ (checker.after catalogue (lines.map .line)).finish.2 := by
  rw [Visit.script, findings_append, List.mem_append, mem_findings_iff, findings_cons,
    findings_nil, List.append_nil]
  refine or_congr ?_ Iff.rfl
  constructor
  · rintro ⟨early, visit, late, hlines, h⟩
    obtain ⟨before, later', rfl, rfl, hlater⟩ := List.map_eq_append_iff.mp hlines
    obtain ⟨line, later, rfl, rfl, rfl⟩ := List.map_eq_cons_iff.mp hlater
    exact ⟨before, line, ⟨later, rfl⟩, h⟩
  · rintro ⟨before, line, ⟨later, rfl⟩, h⟩
    exact ⟨before.map .line, .line line, later.map .line, by simp, h⟩

/-! ### Several checks over the lines of a script -/

/-- One line through several checks: each goes on by itself, and they speak in
order. -/
lemma lineAll_eq (number : Nat) (tokens : List Token) (checkers : List Checker) :
    lineAll catalogue number tokens checkers =
      (checkers.map fun checker => (checker.line catalogue number tokens).1,
        ⟨checkers.flatMap fun checker => (checker.line catalogue number tokens).2.findings,
          checkers.flatMap fun checker => (checker.line catalogue number tokens).2.steps⟩) := by
  induction checkers with
  | nil => rfl
  | cons first rest ih => simp [lineAll, ih, Notes.append]

/-- The checks at the end of a script are those visited on their own. -/
lemma overLines_fst (checkers : List Checker) (lines : List TokenLine) :
    (overLines catalogue checkers lines).1 =
      checkers.map fun checker => checker.after catalogue (lines.map .line) := by
  induction lines generalizing checkers with
  | nil => simp [overLines]
  | cons line rest ih =>
      rw [overLines, lineAll_eq]
      simp only [ih, List.map_map, List.map_cons, after_cons]
      rfl

/-- What is found on the lines of a script is found by one of the checks, visited
on its own. -/
lemma mem_overLines_iff {checkers : List Checker} {lines : List TokenLine}
    {finding : Finding} :
    finding ∈ (overLines catalogue checkers lines).2.findings ↔
      ∃ checker ∈ checkers, finding ∈ checker.findings catalogue (lines.map .line) := by
  induction lines generalizing checkers with
  | nil => simp [overLines, Notes.none]
  | cons line rest ih =>
      rw [overLines, lineAll_eq]
      simp only [Notes.append, List.mem_append, List.mem_flatMap, ih, List.mem_map,
        exists_exists_and_eq_and, List.map_cons, findings_cons]
      rw [← exists_or]
      exact exists_congr fun checker => (and_or_left).symm

end Checker

/-- The findings on a script are those of the four checks, each visited on its
own. -/
theorem mem_allFindings_iff {catalogue : Catalogue} {lines : List TokenLine}
    {finding : Finding} :
    finding ∈ allFindings catalogue lines ↔
      ∃ checker ∈ Checker.standard,
        finding ∈ checker.findings catalogue (Visit.script lines) := by
  simp only [allFindings, List.mem_append, Checker.mem_overLines_iff, endFindings,
    Checker.overLines_fst, List.mem_flatMap, List.mem_map, exists_exists_and_eq_and]
  rw [← exists_or]
  refine exists_congr fun checker => ?_
  rw [← and_or_left, Visit.script, Checker.findings_append, List.mem_append,
    Checker.findings_cons, Checker.findings_nil, List.append_nil]
  rfl

end ScriptLint
