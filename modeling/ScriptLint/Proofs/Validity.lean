import Mathlib
import ScriptLint.Proofs.Subjects

/-!
What it means for a script to be valid.

* `WellFormed`: the brackets of each line agree in number, each character belongs
  to a token, the blocks are well-nested, and each variable is declared before it
  is used.
* `lineShape_no_error_iff`, `blocks_no_error_iff`, `declarations_no_error_iff`,
  `calls_no_error`: when a check tells no error.
* `analyze_isValid_iff`: the verdict is valid exactly when the lines of the script
  are well-formed.
-/

namespace ScriptLint

/-- The finding makes the script invalid. -/
def Finding.IsError (finding : Finding) : Prop :=
  finding.problem.code.severity = .error

/-- The lines of a script are in order. -/
structure WellFormed (catalogue : Catalogue) (lines : List TokenLine) : Prop where
  parens : ∀ line ∈ lines,
    delimiterCount .leftParen line.tokens = delimiterCount .rightParen line.tokens
  brackets : ∀ line ∈ lines,
    delimiterCount .leftBracket line.tokens = delimiterCount .rightBracket line.tokens
  characters : ∀ line ∈ lines, ∀ token ∈ line.tokens, ∀ c, token.kind ≠ .invalid c
  nested : Balanced (blockEvents lines)
  declared : ∀ before line, LineAfter lines before line →
    ∀ index token, line.tokens[index]? = some token → VariableUse line.tokens index →
      catalogue.contains token.lexeme = false → Builtin.isLiteral token.lexeme = false →
        DeclaredBefore before line.tokens index token.lexeme

/-! ### The four checks -/

section Checks

variable {catalogue : Catalogue} {lines : List TokenLine} {finding : Finding}

/-- What a line shows by itself is always an error. -/
lemma isError_of_lineShape {number : Nat} {tokens : List Token}
    (h : finding ∈ lineShapeFindings number tokens) : finding.IsError := by
  rcases mem_lineShapeFindings h with ⟨kind, h⟩ | h
  · obtain ⟨lefts, rights, _, _, _, _, _, _, rfl⟩ := unbalanced?_eq_some h
    cases kind <;> rfl
  · obtain ⟨_, _, _, _, _, _, rfl⟩ := invalidCharacter?_eq_some h
    rfl

/-- The check of single lines tells no error exactly when brackets and characters
are in order on every line. -/
lemma lineShape_no_error_iff :
    (∀ finding ∈ Checker.lineShape.findings catalogue (Visit.script lines),
        ¬ finding.IsError) ↔
      ∀ line ∈ lines,
        delimiterCount .leftParen line.tokens = delimiterCount .rightParen line.tokens ∧
          delimiterCount .leftBracket line.tokens = delimiterCount .rightBracket line.tokens ∧
            ∀ token ∈ line.tokens, ∀ c, token.kind ≠ .invalid c := by
  constructor
  · intro h line hline
    have hnil : lineShapeFindings line.number line.tokens = [] := by
      rw [List.eq_nil_iff_forall_not_mem]
      intro finding hfinding
      exact h finding (mem_lineShape_findings_iff.mpr ⟨line, hline, hfinding⟩)
        (isError_of_lineShape hfinding)
    exact lineShapeFindings_eq_nil_iff.mp hnil
  · intro h finding hfinding
    obtain ⟨line, hline, hmem⟩ := mem_lineShape_findings_iff.mp hfinding
    rw [lineShapeFindings_eq_nil_iff.mpr (h line hline)] at hmem
    exact absurd hmem (List.not_mem_nil)

/-- The check of nesting keeps some stack through all visits. -/
lemma exists_after_blocks (catalogue : Catalogue) (stack : List Frame) (visits : List Visit) :
    ∃ later, (Checker.blocks stack).after catalogue visits = .blocks later := by
  induction visits generalizing stack with
  | nil => exact ⟨stack, rfl⟩
  | cons visit rest ih =>
      cases visit with
      | line line => exact ih _
      | finish => exact ih _

/-- A finding on nesting is always an error. -/
lemma isError_of_blocks {stack : List Frame} {visits : List Visit}
    (h : finding ∈ (Checker.blocks stack).findings catalogue visits) : finding.IsError := by
  obtain ⟨early, visit, late, rfl, hmem⟩ := Checker.mem_findings_iff.mp h
  obtain ⟨later, hafter⟩ := exists_after_blocks catalogue stack early
  rw [hafter] at hmem
  cases visit with
  | finish =>
      rw [Checker.visit_end] at hmem
      obtain ⟨frame, _, rfl⟩ := List.mem_map.mp hmem
      rfl
  | line line =>
      obtain ⟨step, _, hstep⟩ := Option.bind_eq_some_iff.mp (Option.mem_toList.mp hmem)
      cases step with
      | opened frame depth => cases hstep
      | closed frame place => cases hstep
      | mismatched frame closer place =>
          cases hstep
          rfl
      | stray closer place =>
          cases hstep
          rfl

/-- The check of nesting tells no error exactly when the blocks are well-nested. -/
lemma blocks_no_error_iff :
    (∀ finding ∈ (Checker.blocks []).findings catalogue (Visit.script lines),
        ¬ finding.IsError) ↔ Balanced (blockEvents lines) := by
  have hnil : (Checker.blocks []).findings catalogue (Visit.script lines) = [] ↔
      Balanced (blockEvents lines) := findings_eq_nil_iff_balanced
  rw [← hnil, List.eq_nil_iff_forall_not_mem]
  refine forall₂_congr fun finding hfinding => ?_
  exact iff_of_false (not_not_intro (isError_of_blocks hfinding)) id

/-- The check of variables tells no error exactly when each variable is declared
before it is used. -/
lemma declarations_no_error_iff :
    (∀ finding ∈ (Checker.declarations Scope.empty).findings catalogue (Visit.script lines),
        ¬ finding.IsError) ↔
      ∀ before line, LineAfter lines before line →
        ∀ index token, line.tokens[index]? = some token → VariableUse line.tokens index →
          catalogue.contains token.lexeme = false →
            Builtin.isLiteral token.lexeme = false →
              DeclaredBefore before line.tokens index token.lexeme := by
  constructor
  · intro h before line hafter index token htoken hused hbuiltin hliteral
    by_contra hunknown
    exact h _ (undeclared_mem_findings_iff.mpr ⟨before, line, hafter, index, token, htoken,
      rfl, rfl, hused, hbuiltin, hliteral, hunknown⟩) rfl
  · intro h finding hfinding herror
    obtain ⟨place, problem⟩ := finding
    have hundeclared : ∃ text, problem = .undeclared text := by
      rcases mem_declarations_findings_iff.mp hfinding with
        ⟨_, _, _, _, _, _, _, hproblem⟩ | ⟨entry, _, _, hunused⟩
      · cases hproblem with
        | redeclared _ _ => cases herror
        | undeclared _ _ _ _ => exact ⟨_, rfl⟩
      · obtain ⟨rfl, rfl⟩ := Finding.mk.inj hunused
        cases herror
    obtain ⟨text, rfl⟩ := hundeclared
    obtain ⟨before, line, hafter, index, token, htoken, _, _, hused, hbuiltin, hliteral,
      hunknown⟩ := undeclared_mem_findings_iff.mp hfinding
    exact hunknown (h before line hafter index token htoken hused hbuiltin hliteral)

/-- The check of calls tells warnings only. -/
lemma calls_no_error :
    ∀ finding ∈ (Checker.calls Functions.empty).findings catalogue (Visit.script lines),
      ¬ finding.IsError := by
  intro finding hfinding herror
  obtain ⟨place, problem⟩ := finding
  rcases problem_of_calls hfinding with ⟨_, rfl⟩ | rfl <;> cases herror

end Checks

/-! ### Verdicts -/

/-- The verdict is valid exactly when no finding is an error. -/
lemma verdictOn_isValid_iff (settings : Settings) (lines : List TokenLine) :
    (verdictOn settings lines).isValid = true ↔
      ∀ finding ∈ allFindings settings.catalogue lines, ¬ finding.IsError := by
  have herror : ∀ finding, (Issue.ofFinding finding).isError = true ↔ finding.IsError := by
    intro finding
    exact beq_iff_eq
  simp only [verdictOn, Verdict.ofIssues, List.isEmpty_iff, List.filter_eq_nil_iff,
    List.mem_map, forall_exists_index, and_imp, forall_apply_eq_imp_iff₂, herror]

/-- **Validity**: a script is valid exactly when its lines are well-formed. -/
theorem analyze_isValid_iff (analyzer : Analyzer) (source : String) :
    (analyzer.analyze source).isValid = true ↔
      WellFormed analyzer.settings.catalogue
        (TokenLine.ofSource analyzer.settings.markers source.toList) := by
  have hvalid := verdictOn_isValid_iff analyzer.settings
    (TokenLine.ofSource analyzer.settings.markers source.toList)
  rw [Analyzer.analyze, Analyzer.run, hvalid]
  generalize TokenLine.ofSource analyzer.settings.markers source.toList = lines
  constructor
  · intro h
    have hcheck : ∀ checker ∈ Checker.standard, ∀ finding ∈
        checker.findings analyzer.settings.catalogue (Visit.script lines),
          ¬ finding.IsError := by
      intro checker hchecker finding hfinding
      exact h finding (mem_allFindings_iff.mpr ⟨checker, hchecker, hfinding⟩)
    have hshape := lineShape_no_error_iff.mp (hcheck .lineShape (by simp [Checker.standard]))
    exact {
      parens := fun line hline => (hshape line hline).1
      brackets := fun line hline => (hshape line hline).2.1
      characters := fun line hline => (hshape line hline).2.2
      nested := blocks_no_error_iff.mp (hcheck (.blocks []) (by simp [Checker.standard]))
      declared := declarations_no_error_iff.mp
        (hcheck (.declarations Scope.empty) (by simp [Checker.standard])) }
  · intro h finding hfinding
    obtain ⟨checker, hchecker, hmem⟩ := mem_allFindings_iff.mp hfinding
    simp only [Checker.standard, List.mem_cons, List.not_mem_nil, or_false] at hchecker
    rcases hchecker with rfl | rfl | rfl | rfl
    · exact lineShape_no_error_iff.mpr (fun line hline =>
        ⟨h.parens line hline, h.brackets line hline, h.characters line hline⟩) finding hmem
    · exact blocks_no_error_iff.mpr h.nested finding hmem
    · exact declarations_no_error_iff.mpr h.declared finding hmem
    · exact calls_no_error finding hmem

end ScriptLint
