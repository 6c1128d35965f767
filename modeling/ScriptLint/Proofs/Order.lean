import Mathlib
import ScriptLint.Proofs.Names.Account
import ScriptLint.Proofs.Nesting.Fates
import ScriptLint.Proofs.Reading.Lines

/-!
The order of the issues on a script.

* `LinesOrdered`: the lines have increasing numbers and their tokens increasing columns;
  those of a script do (`linesOrdered_ofSource`).
* `IssueCode.stage`, `Issue.ToldBefore`: the order in which issues are told about the
  lines of a script.
* `ToldOn`: findings on one line in order, put together by `ToldOn.append`.
* `Checker.line_ordered`: what one check says of one line; `overLines_ordered`: what
  several checks in the order of their stages say of all lines.
* `allFindings_eq`: the findings on a script end with the open blocks and the unused
  variables.
* `Verdict.Ordered`, `analyze_ordered`: the order of the issues in a verdict, no two of
  which have the code and the place in common.
-/

namespace ScriptLint

/-! ### Lines in order -/

/-- The lines come in the order of their numbers, and the tokens of each line in the order
of their columns. -/
structure LinesOrdered (lines : List TokenLine) : Prop where
  numbers : lines.Pairwise fun a b => a.number < b.number
  columns : ∀ line ∈ lines, line.tokens.Pairwise fun a b => a.column < b.column

section Lines

variable {markers : Markers} {lines rest : List TokenLine} {line : TokenLine}

/-- The lines of a script are in order. -/
theorem linesOrdered_ofSource (markers : Markers) (source : List Char) :
    LinesOrdered (TokenLine.ofSource markers source) where
  numbers := by
    rw [TokenLine.ofSource, List.pairwise_map]
    exact SourceLine.pairwise_scanFrom _ _ _
  columns := by
    intro line hline
    obtain ⟨sourceLine, _, rfl⟩ := List.mem_map.mp hline
    exact (Token.reads_read (sourceLine.column 0) false sourceLine.text).pairwise_column

lemma LinesOrdered.tail (h : LinesOrdered (line :: rest)) : LinesOrdered rest where
  numbers := h.numbers.tail
  columns other hother := h.columns other (List.mem_cons_of_mem _ hother)

/-- A line stands behind the lines before it. -/
lemma LinesOrdered.lt_of_lineAfter {before : List TokenLine} {earlier : TokenLine}
    (h : LinesOrdered lines) (hafter : LineAfter lines before line)
    (hearlier : earlier ∈ before) : earlier.number < line.number := by
  obtain ⟨later, rfl⟩ := hafter
  exact (List.pairwise_append.mp h.numbers).2.2 _ hearlier _ List.mem_cons_self

/-- The visits of lines in order are in order. -/
lemma LinesOrdered.linesIncrease (h : LinesOrdered lines) :
    LinesIncrease (lines.map .line) := by
  intro early late line line' hlt hearly hlate
  simp only [List.getElem?_map, Option.map_eq_some_iff, Visit.line.injEq] at hearly hlate
  obtain ⟨_, hearly, rfl⟩ := hearly
  obtain ⟨_, hlate, rfl⟩ := hlate
  obtain ⟨hlow, rfl⟩ := List.getElem?_eq_some_iff.mp hearly
  obtain ⟨hhigh, rfl⟩ := List.getElem?_eq_some_iff.mp hlate
  exact List.pairwise_iff_getElem.mp h.numbers early late hlow hhigh hlt

end Lines

/-- The identifiers, calls and other tokens of a line keep the order of its columns. -/
lemma pairwise_site_column {tokens : List Token}
    (h : tokens.Pairwise fun a b => a.column < b.column) :
    (Site.ofTokens tokens).Pairwise fun a b => a.token.column < b.token.column := by
  have htokens : (Site.ofTokens tokens).map Site.token = tokens := by
    have hzip := congrArg (List.map Prod.fst) (zipIdx_eq_map_ofTokens tokens)
    rw [List.zipIdx_map_fst, List.map_map] at hzip
    exact hzip.symm
  rw [← htokens, List.pairwise_map] at h
  exact h

/-! ### The order of issues -/

namespace IssueCode

/-- On a line, the issues of an earlier stage are told first. The last stage is the end
of the script. -/
def stage : IssueCode → Nat
  | unmatchedParens => 0
  | unmatchedBrackets => 1
  | invalidCharacter => 2
  | unmatchedEnd _ => 3
  | redeclaredVariable | undeclaredVariable => 4
  | unknownFunction => 5
  | infiniteLoop => 6
  | unclosedControl | unusedVariable => 7

/-- The issue is told of one name on a line, and of every such name. The others are told
of a line once. -/
def isOfName : IssueCode → Bool
  | redeclaredVariable | undeclaredVariable | unknownFunction => true
  | _ => false

end IssueCode

/-- The one place is before the other: on an earlier line, or on the left. -/
def Position.Before (a b : Position) : Prop :=
  a.line < b.line ∨ (a.line = b.line ∧ a.column < b.column)

/-- The one issue is told before the other: about an earlier line, or about the same line
in an earlier stage, or in the same stage about a name on the left. -/
def Issue.ToldBefore (a b : Issue) : Prop :=
  a.place.line < b.place.line ∨
    (a.place.line = b.place.line ∧
      (a.code.stage < b.code.stage ∨
        (a.code.stage = b.code.stage ∧ a.code.isOfName = true ∧ b.code.isOfName = true ∧
          a.place.column < b.place.column)))

/-- The one finding is told before the other. -/
def Finding.ToldBefore (a b : Finding) : Prop :=
  (Issue.ofFinding a).ToldBefore (Issue.ofFinding b)

/-- The finding is told about a line under one of the codes. -/
structure Finding.IsTold (number : Nat) (codes : List IssueCode) (finding : Finding) :
    Prop where
  line_eq : finding.place.line = number
  code_mem : finding.problem.code ∈ codes

/-- The findings are told about a line, under the codes and in order. -/
structure ToldOn (number : Nat) (codes : List IssueCode) (findings : List Finding) : Prop where
  isTold : ∀ finding ∈ findings, finding.IsTold number codes
  ordered : findings.Pairwise Finding.ToldBefore

namespace ToldOn

variable {number : Nat} {codes codes' : List IssueCode} {findings findings' : List Finding}

lemma nil : ToldOn number codes [] where
  isTold _ h := absurd h List.not_mem_nil
  ordered := .nil

/-- At most one finding is in order. -/
lemma option {found? : Option Finding}
    (h : ∀ finding, found? = some finding → finding.IsTold number codes) :
    ToldOn number codes found?.toList where
  isTold finding hfinding := h finding (Option.mem_toList.mp hfinding)
  ordered := by
    cases found? with
    | none => exact .nil
    | some finding => exact List.pairwise_singleton _ _

/-- Findings on one code of names, from the left to the right, are in order. -/
lemma of_columns (hcodes : ∀ code ∈ codes, ∀ code' ∈ codes,
      code.stage = code'.stage ∧ code.isOfName = true)
    (htold : ∀ finding ∈ findings, finding.IsTold number codes)
    (hcolumns : findings.Pairwise fun a b => a.place.column < b.place.column) :
    ToldOn number codes findings where
  isTold := htold
  ordered := by
    refine hcolumns.imp_of_mem ?_
    intro a b ha hb hcolumn
    obtain ⟨hline, hcode⟩ := htold a ha
    obtain ⟨hline', hcode'⟩ := htold b hb
    exact .inr ⟨hline.trans hline'.symm, .inr ⟨(hcodes _ hcode _ hcode').1,
      (hcodes _ hcode _ hcode).2, (hcodes _ hcode' _ hcode').2, hcolumn⟩⟩

/-- Findings of later stages come behind. -/
lemma append (h : ToldOn number codes findings) (h' : ToldOn number codes' findings')
    (hstage : ∀ code ∈ codes, ∀ code' ∈ codes', code.stage < code'.stage) :
    ToldOn number (codes ++ codes') (findings ++ findings') where
  isTold := by
    intro finding hfinding
    rcases List.mem_append.mp hfinding with hfinding | hfinding
    · obtain ⟨hline, hcode⟩ := h.isTold finding hfinding
      exact ⟨hline, List.mem_append_left _ hcode⟩
    · obtain ⟨hline, hcode⟩ := h'.isTold finding hfinding
      exact ⟨hline, List.mem_append_right _ hcode⟩
  ordered := by
    refine List.pairwise_append.mpr ⟨h.ordered, h'.ordered, fun a ha b hb => ?_⟩
    obtain ⟨hline, hcode⟩ := h.isTold a ha
    obtain ⟨hline', hcode'⟩ := h'.isTold b hb
    exact .inr ⟨hline.trans hline'.symm, .inl (hstage _ hcode _ hcode')⟩

end ToldOn

/-! ### One line -/

section Line

variable {catalogue : Catalogue} {number : Nat} {tokens : List Token}

/-- Brackets and characters of a line are told once each, in this order. -/
lemma lineShape_ordered :
    ToldOn number [.unmatchedParens, .unmatchedBrackets, .invalidCharacter]
      (lineShapeFindings number tokens) := by
  have hround : ToldOn number [.unmatchedParens] (unbalanced? .round number tokens).toList := by
    refine .option fun finding h => ?_
    obtain ⟨_, _, _, _, _, _, _, _, rfl⟩ := unbalanced?_eq_some h
    exact ⟨rfl, List.mem_singleton_self _⟩
  have hsquare : ToldOn number [.unmatchedBrackets]
      (unbalanced? .square number tokens).toList := by
    refine .option fun finding h => ?_
    obtain ⟨_, _, _, _, _, _, _, _, rfl⟩ := unbalanced?_eq_some h
    exact ⟨rfl, List.mem_singleton_self _⟩
  have hcharacter : ToldOn number [.invalidCharacter]
      (invalidCharacter? number tokens).toList := by
    refine .option fun finding h => ?_
    obtain ⟨_, _, _, _, _, _, rfl⟩ := invalidCharacter?_eq_some h
    exact ⟨rfl, List.mem_singleton_self _⟩
  rw [lineShapeFindings_eq]
  exact hround.append (hsquare.append hcharacter (by decide)) (by decide)

/-- The step of a line has at most one finding. -/
lemma blockLine_ordered (stack : List Frame) :
    ToldOn number (BlockKind.all.map .unmatchedEnd)
      ((blockLine stack number tokens).2.bind BlockStep.finding?).toList := by
  have hcode : ∀ kind, IssueCode.unmatchedEnd kind ∈ BlockKind.all.map .unmatchedEnd := by
    intro kind
    cases kind <;> decide
  refine .option fun finding h => ?_
  rw [blockLine] at h
  cases hmark : BlockMark.ofTokens? tokens with
  | none => simp [hmark] at h
  | some mark =>
      obtain ⟨mark, column⟩ := mark
      rw [hmark] at h
      cases mark with
      | opens kind => cases h
      | closes kind =>
          cases stack with
          | nil =>
              cases h
              exact ⟨rfl, hcode kind⟩
          | cons frame outer =>
              simp only [BlockStep.take] at h
              split_ifs at h
              · cases h
              · cases h
                exact ⟨rfl, hcode kind⟩

/-- What the identifiers of a line say stands at them. -/
lemma Scope.exists_entry {scope : Scope} {roles : List (Site × Role)} {finding : Finding}
    (h : finding ∈ (scope.identifiers catalogue number roles).2) :
    (∃ entry ∈ roles, finding.place = ⟨number, entry.1.token.column⟩) ∧
      finding.problem.code ∈ [IssueCode.redeclaredVariable, .undeclaredVariable] := by
  obtain ⟨early, ⟨site, role⟩, late, rfl, hmem⟩ := mem_identifiers_iff.mp h
  obtain ⟨hplace, hproblem⟩ := mem_identifier_iff.mp hmem
  refine ⟨⟨_, List.mem_append_right _ List.mem_cons_self, hplace⟩, ?_⟩
  rcases hproblem with ⟨_, _, hproblem⟩ | ⟨_, _, _, _, hproblem⟩
  · simp [hproblem, Problem.code]
  · simp [hproblem, Problem.code]

/-- The identifiers of a line speak from the left to the right. -/
lemma Scope.identifiers_ordered {scope : Scope} {roles : List (Site × Role)}
    (h : roles.Pairwise fun a b => a.1.token.column < b.1.token.column) :
    (scope.identifiers catalogue number roles).2.Pairwise
      fun a b => a.place.column < b.place.column := by
  induction roles generalizing scope with
  | nil => exact .nil
  | cons first rest ih =>
      obtain ⟨hfirst, hrest⟩ := List.pairwise_cons.mp h
      rw [identifiers, List.pairwise_append]
      refine ⟨?_, ih hrest, ?_⟩
      · rw [identifier_findings_eq]
        split_ifs
        · exact List.pairwise_singleton _ _
        · exact List.pairwise_singleton _ _
        · exact .nil
      · intro a ha b hb
        have hsingle : a ∈ (scope.identifiers catalogue number [first]).2 :=
          List.mem_append_left _ ha
        obtain ⟨⟨entry, hentry, hplace⟩, _⟩ := exists_entry hsingle
        obtain ⟨⟨other, hother, hplace'⟩, _⟩ := exists_entry hb
        obtain rfl := List.mem_singleton.mp hentry
        rw [hplace, hplace']
        exact hfirst other hother

/-- The variables of a line are told from the left to the right. -/
lemma Scope.line_ordered (scope : Scope)
    (h : tokens.Pairwise fun a b => a.column < b.column) :
    ToldOn number [.redeclaredVariable, .undeclaredVariable]
      (scope.line catalogue number tokens).2 := by
  refine .of_columns (by decide) ?_ ?_
  · intro finding hfinding
    obtain ⟨⟨entry, _, hplace⟩, hcode⟩ := exists_entry hfinding
    exact ⟨by rw [hplace], hcode⟩
  · refine identifiers_ordered ?_
    rw [identifierRoles, List.pairwise_map]
    exact (pairwise_site_column h).filter _

/-- The unknown functions of a line are told from the left to the right, then a loop that
cannot end. -/
lemma Functions.line_ordered (functions : Functions)
    (h : tokens.Pairwise fun a b => a.column < b.column) :
    ToldOn number [.unknownFunction, .infiniteLoop]
      (functions.line catalogue number tokens).2 := by
  have hcalls : ToldOn number [.unknownFunction]
      ((functions.define tokens).unknownFindings catalogue number tokens) := by
    refine .of_columns (by decide) ?_ ?_
    · intro finding hfinding
      obtain ⟨call, _, rfl⟩ := List.mem_map.mp hfinding
      exact ⟨rfl, List.mem_singleton_self _⟩
    · rw [unknownFindings, List.pairwise_map, calls, List.filter_map, List.pairwise_map]
      exact ((pairwise_site_column h).filter _).filter _
  have hloops : ToldOn number [.infiniteLoop] (endlessFindings number tokens) := by
    rw [endlessFindings]
    split_ifs
    · rw [← Option.toList_map]
      refine .option fun finding h => ?_
      obtain ⟨first, _, rfl⟩ := Option.map_eq_some_iff.mp h
      exact ⟨rfl, List.mem_singleton_self _⟩
    · exact .nil
  exact hcalls.append hloops (by decide)

end Line

/-! ### Several checks -/

namespace Checker

variable {catalogue : Catalogue} {checkers : List Checker}

/-- The codes under which a check tells of a line. -/
def codes : Checker → List IssueCode
  | lineShape => [.unmatchedParens, .unmatchedBrackets, .invalidCharacter]
  | blocks _ => BlockKind.all.map .unmatchedEnd
  | declarations _ => [.redeclaredVariable, .undeclaredVariable]
  | calls _ => [.unknownFunction, .infiniteLoop]

/-- The checks come in the order of the stages at which they tell something. -/
def Staged (checkers : List Checker) : Prop :=
  (checkers.map codes).Pairwise fun early late =>
    ∀ code ∈ early, ∀ code' ∈ late, code.stage < code'.stage

lemma staged_standard : Staged standard := by
  rw [Staged]
  decide

/-- A check speaks under the same codes on all lines. -/
lemma codes_line (checker : Checker) (number : Nat) (tokens : List Token) :
    (checker.line catalogue number tokens).1.codes = checker.codes := by
  cases checker <;> rfl

/-- **One check on one line**: its findings are about the line, under its codes, and in
order. -/
theorem line_ordered (checker : Checker) (number : Nat) {tokens : List Token}
    (h : tokens.Pairwise fun a b => a.column < b.column) :
    ToldOn number checker.codes (checker.line catalogue number tokens).2.findings := by
  cases checker with
  | lineShape => exact lineShape_ordered
  | blocks stack => exact blockLine_ordered stack
  | declarations scope => exact scope.line_ordered h
  | calls functions => exact functions.line_ordered h

/-- One line through several checks: the findings are about the line, and in order. -/
lemma lineAll_ordered (catalogue : Catalogue) (hstaged : Staged checkers) (number : Nat)
    {tokens : List Token} (h : tokens.Pairwise fun a b => a.column < b.column) :
    ToldOn number (checkers.flatMap codes)
      (lineAll catalogue number tokens checkers).2.findings := by
  rw [lineAll_eq]
  induction checkers with
  | nil => exact .nil
  | cons checker rest ih =>
      obtain ⟨hfirst, hrest⟩ := List.pairwise_cons.mp hstaged
      refine (checker.line_ordered number h).append (ih hrest) fun code hcode code' hcode' => ?_
      obtain ⟨other, hother, hmem⟩ := List.mem_flatMap.mp hcode'
      exact hfirst _ (List.mem_map_of_mem hother) code hcode code' hmem

end Checker

/-- **Several checks on a script**: the findings are about its lines, under the codes of
the checks, and in order. -/
theorem overLines_ordered {catalogue : Catalogue} {checkers : List Checker}
    {lines : List TokenLine} (hstaged : Checker.Staged checkers) (h : LinesOrdered lines) :
    (∀ finding ∈ (overLines catalogue checkers lines).2.findings,
        ∃ line ∈ lines, finding.IsTold line.number (checkers.flatMap Checker.codes)) ∧
      (overLines catalogue checkers lines).2.findings.Pairwise Finding.ToldBefore := by
  induction lines generalizing checkers with
  | nil => exact ⟨fun _ hfinding => absurd hfinding List.not_mem_nil, .nil⟩
  | cons line rest ih =>
      have hcolumns := h.columns line List.mem_cons_self
      obtain ⟨hhere, horder⟩ :=
        Checker.lineAll_ordered catalogue hstaged line.number hcolumns
      have hcodes : (Checker.lineAll catalogue line.number line.tokens checkers).1.map
          Checker.codes = checkers.map Checker.codes := by
        rw [Checker.lineAll_eq, List.map_map]
        exact List.map_congr_left fun checker _ => checker.codes_line _ _
      have hstaged' : Checker.Staged
          (Checker.lineAll catalogue line.number line.tokens checkers).1 := by
        rw [Checker.Staged, hcodes]
        exact hstaged
      obtain ⟨hlater, horder'⟩ := ih hstaged' h.tail
      rw [List.flatMap_def, hcodes, ← List.flatMap_def] at hlater
      constructor
      · intro finding hfinding
        rcases List.mem_append.mp hfinding with hfinding | hfinding
        · exact ⟨line, List.mem_cons_self, hhere finding hfinding⟩
        · obtain ⟨other, hother, htold⟩ := hlater finding hfinding
          exact ⟨other, List.mem_cons_of_mem _ hother, htold⟩
      · refine List.pairwise_append.mpr ⟨horder, horder', fun a ha b hb => .inl ?_⟩
        obtain ⟨other, hother, htold⟩ := hlater b hb
        have hlt := (List.pairwise_cons.mp h.numbers).1 other hother
        rw [← (hhere a ha).line_eq, ← htold.line_eq] at hlt
        exact hlt

/-! ### The end of a script -/

/-- The blocks that are open after the lines, the innermost first. -/
def openFrames (lines : List TokenLine) : List Frame :=
  (heldAt (lines.map .line) lines.length).map Held.frame

section End

variable (catalogue : Catalogue) {lines : List TokenLine}

/-- The check of nesting goes through a script with the open blocks. -/
lemma after_blocks (lines : List TokenLine) :
    (Checker.blocks []).after catalogue (lines.map .line) = .blocks (openFrames lines) := by
  have hstack := after_take_eq_heldAt catalogue (lines.map .line) lines.length
  rwa [List.take_of_length_le (by rw [List.length_map])] at hstack

/-- The findings on a script: those on its lines, then the open blocks, then the variables
that are not used. -/
theorem allFindings_eq (lines : List TokenLine) :
    allFindings catalogue lines =
      (overLines catalogue Checker.standard lines).2.findings ++
        (unclosedFindings (openFrames lines) ++
          (Scope.empty.afterLines catalogue lines).unusedFindings) := by
  obtain ⟨functions, hcalls⟩ : ∃ later, (Checker.calls Functions.empty).after catalogue
      (lines.map .line) = .calls later := exists_after_calls Functions.empty lines
  simp only [allFindings, endFindings, Checker.overLines_fst, Checker.standard, List.map_cons,
    List.map_nil, after_lineShape, after_blocks, Scope.after_declarations, hcalls,
    Checker.finish, List.flatMap_cons, List.flatMap_nil, List.append_nil, List.nil_append]

/-- The open blocks are told in the order of their lines. -/
lemma pairwise_unclosedFindings (h : LinesOrdered lines) :
    (unclosedFindings (openFrames lines)).Pairwise
      fun a b => a.place.line < b.place.line := by
  rw [unclosedFindings, openFrames, ← List.map_reverse, List.map_map, List.pairwise_map,
    List.pairwise_reverse]
  exact h.linesIncrease.pairwise_heldAt _

/-- The tokens of lines in order stand in order. -/
lemma Occurrence.place_before (h : LinesOrdered lines) {a b : Occurrence}
    (ha : a ∈ occurrences lines) (hb : b ∈ occurrences lines) (hab : a.Precedes b) :
    a.place.Before b.place := by
  obtain ⟨_, htoken⟩ := mem_occurrences_iff.mp ha
  obtain ⟨hafter, htoken'⟩ := mem_occurrences_iff.mp hb
  rcases hab with hline | ⟨_, hline, hindex⟩
  · exact .inl (h.lt_of_lineAfter hafter hline)
  · rw [hline] at htoken
    obtain ⟨hlt, hget⟩ := List.getElem?_eq_some_iff.mp htoken
    obtain ⟨hlt', hget'⟩ := List.getElem?_eq_some_iff.mp htoken'
    have hcolumn := List.pairwise_iff_getElem.mp (h.columns _ hafter.mem) _ _ hlt hlt' hindex
    rw [hget, hget'] at hcolumn
    exact .inr ⟨congrArg TokenLine.number hline, hcolumn⟩

/-- The variables that are not used are told in the order of their declarations. -/
lemma pairwise_unusedFindings (h : LinesOrdered lines) :
    ((Scope.empty.afterLines catalogue lines).unusedFindings).Pairwise
      fun a b => a.place.Before b.place := by
  rw [Scope.unusedFindings, introduced_afterLines_eq, List.pairwise_map]
  refine List.Pairwise.filter _ (List.pairwise_filterMap.mpr ?_)
  refine (pairwise_occurrences lines).imp_of_mem ?_
  intro a b ha hb hab entry hentry entry' hentry'
  rw [Occurrence.introduced?] at hentry hentry'
  split_ifs at hentry hentry'
  cases hentry
  cases hentry'
  exact Occurrence.place_before h ha hb hab

end End

/-! ### Verdicts -/

/-- The issues are told about lines, in order, and after that those of one code are told
at the end of the script. -/
def Issue.ToldInParts (terminal : IssueCode) (after : Issue → Issue → Prop)
    (issues : List Issue) : Prop :=
  ∃ told left : List Issue, issues = told ++ left ∧
    (∀ issue ∈ told, issue.code ≠ terminal) ∧
      (∀ issue ∈ left, issue.code = terminal) ∧
        told.Pairwise Issue.ToldBefore ∧ left.Pairwise after

/-- The issues of a verdict come in order. -/
structure Verdict.Ordered (verdict : Verdict) : Prop where
  /-- The errors about lines come before the open blocks, which come by their lines. -/
  errors : Issue.ToldInParts .unclosedControl (fun a b => a.place.line < b.place.line)
    verdict.errors
  /-- The warnings about lines come before the unused variables, which come by their
  places. -/
  warnings : Issue.ToldInParts .unusedVariable (fun a b => a.place.Before b.place)
    verdict.warnings
  /-- The errors have the codes of errors, and the warnings have those of warnings. -/
  severities : (∀ issue ∈ verdict.errors, issue.code.severity = .error) ∧
    ∀ issue ∈ verdict.warnings, issue.code.severity = .warning
  /-- No two issues have the code and the place in common. -/
  distinct : verdict.issues.Pairwise fun a b => a.code = b.code → a.place ≠ b.place

section Distinct

variable {a b : Issue}

lemma Position.Before.ne {a b : Position} (h : a.Before b) : a ≠ b := by
  rintro rfl
  rcases h with h | ⟨_, h⟩ <;> omega

/-- One issue that is told before another is not the same again. -/
lemma Issue.ToldBefore.ne (h : a.ToldBefore b) (hcode : a.code = b.code) :
    a.place ≠ b.place := by
  intro hplace
  rcases h with h | ⟨_, h | ⟨_, _, _, h⟩⟩
  · rw [hplace] at h
    omega
  · rw [hcode] at h
    omega
  · rw [hplace] at h
    omega

/-- Issues in parts are told once each. -/
lemma Issue.ToldInParts.distinct {terminal : IssueCode} {after : Issue → Issue → Prop}
    {issues : List Issue} (h : Issue.ToldInParts terminal after issues)
    (hafter : ∀ a b, after a b → a.place ≠ b.place) :
    issues.Pairwise fun a b => a.code = b.code → a.place ≠ b.place := by
  obtain ⟨told, left, rfl, htold, hleft, horder, horder'⟩ := h
  refine List.pairwise_append.mpr ⟨horder.imp Issue.ToldBefore.ne, ?_, ?_⟩
  · refine horder'.imp ?_
    intro a b hab _
    exact hafter a b hab
  · intro a ha b hb hcode
    exact absurd (hcode.trans (hleft b hb)) (htold a ha)

end Distinct

section Filter

variable {α : Type} {p : α → Bool} {xs ys : List α}

/-- Of two lists one after the other, a test that holds on the first and fails on the
second leaves the first. -/
lemma filter_append_eq_left (hxs : ∀ x ∈ xs, p x = true) (hys : ∀ y ∈ ys, p y = false) :
    (xs ++ ys).filter p = xs := by
  rw [List.filter_append, List.filter_eq_self.mpr hxs,
    List.filter_eq_nil_iff.mpr fun y hy => Bool.eq_false_iff.mp (hys y hy), List.append_nil]

/-- Of two lists one after the other, a test that fails on the first and holds on the
second leaves the second. -/
lemma filter_append_eq_right (hxs : ∀ x ∈ xs, p x = false) (hys : ∀ y ∈ ys, p y = true) :
    (xs ++ ys).filter p = ys := by
  rw [List.filter_append, List.filter_eq_self.mpr hys,
    List.filter_eq_nil_iff.mpr fun x hx => Bool.eq_false_iff.mp (hxs x hx), List.nil_append]

end Filter

section Verdict

variable {lines : List TokenLine}

/-- The issues about the lines of a script, in the order in which they are told. -/
def lineIssues (catalogue : Catalogue) (lines : List TokenLine) : List Issue :=
  (overLines catalogue Checker.standard lines).2.findings.map Issue.ofFinding

/-- The issues on the blocks that are open at the end. -/
def unclosedIssues (lines : List TokenLine) : List Issue :=
  (unclosedFindings (openFrames lines)).map Issue.ofFinding

/-- The issues on the variables that are not used. -/
def unusedIssues (catalogue : Catalogue) (lines : List TokenLine) : List Issue :=
  ((Scope.empty.afterLines catalogue lines).unusedFindings).map Issue.ofFinding

lemma code_of_mem_unclosedIssues {issue : Issue} (h : issue ∈ unclosedIssues lines) :
    issue.code = .unclosedControl ∧ issue.isError = true := by
  obtain ⟨finding, hfinding, rfl⟩ := List.mem_map.mp h
  obtain ⟨frame, _, rfl⟩ := List.mem_map.mp hfinding
  exact ⟨rfl, rfl⟩

lemma code_of_mem_unusedIssues {catalogue : Catalogue} {issue : Issue}
    (h : issue ∈ unusedIssues catalogue lines) :
    issue.code = .unusedVariable ∧ issue.isError = false := by
  obtain ⟨finding, hfinding, rfl⟩ := List.mem_map.mp h
  obtain ⟨entry, _, rfl⟩ := List.mem_map.mp hfinding
  exact ⟨rfl, rfl⟩

/-- The issues on a script: those about its lines, then those told at its end. -/
lemma issues_eq (catalogue : Catalogue) (lines : List TokenLine) :
    (allFindings catalogue lines).map Issue.ofFinding =
      lineIssues catalogue lines ++ (unclosedIssues lines ++ unusedIssues catalogue lines) := by
  rw [allFindings_eq, List.map_append, List.map_append]
  rfl

/-- The errors of a verdict: those about lines, then the open blocks. -/
theorem errors_verdictOn (settings : Settings) (lines : List TokenLine) :
    (verdictOn settings lines).errors =
      (lineIssues settings.catalogue lines).filter Issue.isError ++ unclosedIssues lines := by
  have herrors : (verdictOn settings lines).errors =
      ((allFindings settings.catalogue lines).map Issue.ofFinding).filter Issue.isError := rfl
  rw [herrors, issues_eq, List.filter_append, filter_append_eq_left]
  · exact fun issue hissue => (code_of_mem_unclosedIssues hissue).2
  · exact fun issue hissue => (code_of_mem_unusedIssues hissue).2

/-- The warnings of a verdict: those about lines, then the unused variables. -/
theorem warnings_verdictOn (settings : Settings) (lines : List TokenLine) :
    (verdictOn settings lines).warnings =
      (lineIssues settings.catalogue lines).filter (fun issue => !issue.isError) ++
        unusedIssues settings.catalogue lines := by
  have hwarnings : (verdictOn settings lines).warnings =
      ((allFindings settings.catalogue lines).map Issue.ofFinding).filter
        fun issue => !issue.isError := rfl
  rw [hwarnings, issues_eq, List.filter_append, filter_append_eq_right]
  · exact fun issue hissue => by rw [(code_of_mem_unclosedIssues hissue).2, Bool.not_true]
  · exact fun issue hissue => by rw [(code_of_mem_unusedIssues hissue).2, Bool.not_false]

/-- The severity of an issue is that of its code. -/
lemma severity_verdictOn (settings : Settings) (lines : List TokenLine) :
    (∀ issue ∈ (verdictOn settings lines).errors, issue.code.severity = .error) ∧
      ∀ issue ∈ (verdictOn settings lines).warnings, issue.code.severity = .warning := by
  constructor
  · intro issue hissue
    obtain ⟨hmem, herror⟩ := List.mem_filter.mp hissue
    obtain ⟨finding, _, rfl⟩ := List.mem_map.mp hmem
    exact beq_iff_eq.mp herror
  · intro issue hissue
    obtain ⟨hmem, hwarning⟩ := List.mem_filter.mp hissue
    obtain ⟨finding, _, rfl⟩ := List.mem_map.mp hmem
    have hne : finding.problem.code.severity ≠ .error := by
      intro herror
      rw [Bool.not_eq_true', Issue.isError, beq_eq_false_iff_ne] at hwarning
      exact hwarning herror
    change finding.problem.code.severity = .warning
    cases hseverity : finding.problem.code.severity with
    | error => exact absurd hseverity hne
    | warning => rfl

/-- What is told about lines is not told at the end of a script. -/
lemma code_of_mem_lineIssues {catalogue : Catalogue} (h : LinesOrdered lines) {issue : Issue}
    (hissue : issue ∈ lineIssues catalogue lines) :
    issue.code ≠ .unclosedControl ∧ issue.code ≠ .unusedVariable := by
  obtain ⟨finding, hfinding, rfl⟩ := List.mem_map.mp hissue
  obtain ⟨_, _, htold⟩ := (overLines_ordered Checker.staged_standard h).1 finding hfinding
  have hcodes : ∀ code ∈ Checker.standard.flatMap Checker.codes,
      code ≠ .unclosedControl ∧ code ≠ .unusedVariable := by decide
  exact hcodes _ htold.code_mem

/-- What is told about lines in order is told in order. -/
lemma pairwise_lineIssues (catalogue : Catalogue) (h : LinesOrdered lines) :
    (lineIssues catalogue lines).Pairwise Issue.ToldBefore :=
  List.pairwise_map.mpr (overLines_ordered Checker.staged_standard h).2

/-- The verdict on lines in order is in order. -/
theorem verdictOn_ordered (settings : Settings) (h : LinesOrdered lines) :
    (verdictOn settings lines).Ordered := by
  have herrors : Issue.ToldInParts .unclosedControl
      (fun a b => a.place.line < b.place.line) (verdictOn settings lines).errors :=
    ⟨_, _, errors_verdictOn settings lines,
      fun issue hissue => (code_of_mem_lineIssues h (List.mem_of_mem_filter hissue)).1,
      fun issue hissue => (code_of_mem_unclosedIssues hissue).1,
      (pairwise_lineIssues _ h).filter _,
      List.pairwise_map.mpr (pairwise_unclosedFindings h)⟩
  have hwarnings : Issue.ToldInParts .unusedVariable
      (fun a b => a.place.Before b.place) (verdictOn settings lines).warnings :=
    ⟨_, _, warnings_verdictOn settings lines,
      fun issue hissue => (code_of_mem_lineIssues h (List.mem_of_mem_filter hissue)).2,
      fun issue hissue => (code_of_mem_unusedIssues hissue).1,
      (pairwise_lineIssues _ h).filter _,
      List.pairwise_map.mpr (pairwise_unusedFindings _ h)⟩
  have hseverities := severity_verdictOn settings lines
  refine ⟨herrors, hwarnings, hseverities, List.pairwise_append.mpr ⟨?_, ?_, ?_⟩⟩
  · refine herrors.distinct fun a b hlt hplace => ?_
    rw [hplace] at hlt
    omega
  · exact hwarnings.distinct fun a b hbefore => hbefore.ne
  · intro a ha b hb hcode
    have herror := hseverities.1 a ha
    rw [hcode, hseverities.2 b hb] at herror
    cases herror

/-- **Order**: in the verdict on any script, the issues about lines come in the order of
the lines, on one line in the order of the checks, under one check from the left to the
right; the open blocks and the unused variables follow in order; and no issue comes
twice. -/
theorem analyze_ordered (analyzer : Analyzer) (source : String) :
    (analyzer.analyze source).Ordered :=
  verdictOn_ordered analyzer.settings (linesOrdered_ofSource _ _)

end Verdict

end ScriptLint
