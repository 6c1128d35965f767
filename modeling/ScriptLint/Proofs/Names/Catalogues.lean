import Mathlib
import ScriptLint.Proofs.Growth
import ScriptLint.Proofs.Messages

/-!
What more built-in names change in a verdict.

* `Catalogue.Within`: each name in the one catalogue is in the other.
* `Finding.remains`: the finding tells of no name that a catalogue holds to be undeclared or
  unknown.
* `Scope.Agrees`, `Checker.Agrees`: two checks that have learnt the same of a script, but for
  the uses of names.
* `Checker.line_within`, `overLines_within`: under a larger catalogue, checks that agree go
  on to agree, and of their findings those remain that `Finding.remains` says.
* `Verdict.Grown`, `verdictOn_grown`: the verdict under one more built-in name.
* `analyze_withBuiltins`: the verdict under more names, and under the same names in another
  order.
-/

namespace ScriptLint

/-! ### Larger catalogues -/

/-- Each name in the one catalogue is in the other. -/
def Catalogue.Within (small large : Catalogue) : Prop :=
  ∀ name, small.contains name = true → large.contains name = true

/-- What a finding tells still holds if the names of a catalogue are built in. -/
def Finding.remains (catalogue : Catalogue) (finding : Finding) : Bool :=
  match finding.problem with
  | .undeclared name => !catalogue.contains name.toList
  | .unknownFunction name => !catalogue.contains name.toList
  | _ => true

section Remains

variable {catalogue small large : Catalogue} {finding : Finding} {findings : List Finding}

/-- Two codes tell of names that a catalogue may hold. -/
lemma Finding.remains_of_code (hundeclared : finding.problem.code ≠ .undeclaredVariable)
    (hunknown : finding.problem.code ≠ .unknownFunction) : finding.remains catalogue = true := by
  obtain ⟨place, problem⟩ := finding
  cases problem with
  | undeclared name => exact absurd rfl hundeclared
  | unknownFunction name => exact absurd rfl hunknown
  | _ => rfl

/-- Findings under other codes remain. -/
lemma ToldOn.filter_remains {number : Nat} {codes : List IssueCode}
    (h : ToldOn number codes findings) (hundeclared : .undeclaredVariable ∉ codes)
    (hunknown : .unknownFunction ∉ codes) :
    findings.filter (Finding.remains catalogue) = findings := by
  refine List.filter_eq_self.mpr fun finding hfinding => ?_
  have hcode := (h.isTold finding hfinding).code_mem
  exact Finding.remains_of_code (fun heq => hundeclared (heq ▸ hcode))
    fun heq => hunknown (heq ▸ hcode)

end Remains

/-! ### Scopes that agree -/

namespace Scope

/-- The same names are declared, by the same declarations. The uses may differ. -/
structure Agrees (a b : Scope) : Prop where
  declared : b.declared = a.declared
  introduced : b.introduced = a.introduced

namespace Agrees

variable {small large : Catalogue} {a b : Scope} {number : Nat} {tokens : List Token}

lemma declares (h : a.Agrees b) (name : List Char) : b.declares name = a.declares name := by
  rw [Scope.declares, h.declared, Scope.declares]

lemma declare (h : a.Agrees b) (name : List Char) : (a.declare name).Agrees (b.declare name) := by
  rw [Scope.declare, Scope.declare, h.declares]
  split_ifs
  · exact h
  · exact ⟨congrArg (name :: ·) h.declared, h.introduced⟩

lemma declareHead (h : a.Agrees b) (tokens : List Token) :
    (a.declareHead tokens).Agrees (b.declareHead tokens) := by
  rw [Scope.declareHead, Scope.declareHead]
  induction headNames tokens generalizing a b with
  | nil => exact h
  | cons name rest ih => exact ih (h.declare name)

/-- A use changes nothing that is declared. -/
lemma recordUse (h : a.Agrees b) (name : List Char) (place : Position) :
    (a.recordUse small name place).1.Agrees (b.recordUse large name place).1 := by
  have hkept : ∀ (catalogue : Catalogue) (scope : Scope),
      scope.Agrees (scope.recordUse catalogue name place).1 := by
    intro catalogue scope
    rw [Scope.recordUse]
    split_ifs <;> exact ⟨rfl, rfl⟩
  have ha := hkept small a
  have hb := hkept large b
  exact ⟨hb.declared.trans (h.declared.trans ha.declared.symm),
    hb.introduced.trans (h.introduced.trans ha.introduced.symm)⟩

/-- One identifier: the scopes go on to agree. -/
lemma identifier (h : a.Agrees b) (entry : Site × Role) :
    (a.identifier small number entry).1.Agrees (b.identifier large number entry).1 := by
  obtain ⟨site, role⟩ := entry
  cases role with
  | varTarget =>
      simp only [Scope.identifier, declareVariable, h.declares]
      split_ifs
      · exact h
      · exact ⟨congrArg (site.token.lexeme :: ·) h.declared, congrArg (_ :: ·) h.introduced⟩
  | use => exact h.recordUse _ _
  | _ => exact h

/-- One identifier: of what is said under the small catalogue, what still holds is said
under the large one. -/
lemma identifier_findings (h : a.Agrees b) (hwithin : small.Within large) (entry : Site × Role) :
    (b.identifier large number entry).2 =
      (a.identifier small number entry).2.filter (Finding.remains large) := by
  obtain ⟨site, role⟩ := entry
  rw [identifier_findings_eq, identifier_findings_eq, h.declared]
  by_cases hredeclared : role = .varTarget ∧ site.token.lexeme ∈ a.declared
  · rw [if_pos hredeclared, if_pos hredeclared]
    rfl
  · rw [if_neg hredeclared, if_neg hredeclared]
    cases hlarge : large.contains site.token.lexeme with
    | true =>
        rw [if_neg (by simp)]
        split_ifs
        · simp [Finding.remains, Token.name, hlarge]
        · rfl
    | false =>
        have hsmall : small.contains site.token.lexeme = false := by
          rw [Bool.eq_false_iff] at hlarge ⊢
          exact mt (hwithin _) hlarge
        rw [hsmall]
        split_ifs
        · simp [Finding.remains, Token.name, hlarge]
        · rfl

lemma identifiers (h : a.Agrees b) (hwithin : small.Within large) (roles : List (Site × Role)) :
    (a.identifiers small number roles).1.Agrees (b.identifiers large number roles).1 ∧
      (b.identifiers large number roles).2 =
        (a.identifiers small number roles).2.filter (Finding.remains large) := by
  induction roles generalizing a b with
  | nil => exact ⟨h, rfl⟩
  | cons first rest ih =>
      obtain ⟨hagrees, hfindings⟩ := ih (h.identifier first)
      refine ⟨hagrees, ?_⟩
      rw [Scope.identifiers, Scope.identifiers, List.filter_append, ← hfindings,
        ← h.identifier_findings hwithin first]

end Agrees

end Scope

/-! ### Checks that agree -/

namespace Checker

/-- The same check, which has learnt the same of the script but for the uses of names. -/
inductive Agrees : Checker → Checker → Prop where
  | lineShape : Agrees .lineShape .lineShape
  | blocks (stack : List Frame) : Agrees (.blocks stack) (.blocks stack)
  | declarations {a b : Scope} (scopes : a.Agrees b) : Agrees (.declarations a) (.declarations b)
  | calls (functions : Functions) : Agrees (.calls functions) (.calls functions)

lemma Agrees.refl (checker : Checker) : checker.Agrees checker := by
  cases checker with
  | lineShape => exact .lineShape
  | blocks stack => exact .blocks stack
  | declarations scope => exact .declarations ⟨rfl, rfl⟩
  | calls functions => exact .calls functions

section Within

variable {small large : Catalogue} {a b : Checker} {as bs : List Checker}
  (hwithin : small.Within large)

include hwithin

/-- The calls of a line that are unknown under the large catalogue. -/
lemma unknownFindings_within (functions : Functions) (number : Nat) (tokens : List Token) :
    functions.unknownFindings large number tokens =
      (functions.unknownFindings small number tokens).filter (Finding.remains large) := by
  rw [Functions.unknownFindings, Functions.unknownFindings, List.filter_map, List.filter_filter]
  refine congrArg (List.map _) (List.filter_congr fun call _ => ?_)
  have hname : call.name.toList = call.lexeme := String.toList_ofList
  simp only [Function.comp_apply, Finding.remains, hname, Functions.knows, Catalogue.reserves]
  cases hlarge : large.contains call.lexeme with
  | true => simp
  | false =>
      rw [Bool.eq_false_iff] at hlarge
      rw [Bool.eq_false_iff.mpr (mt (hwithin _) hlarge)]
      simp

/-- **One line under a larger catalogue**: checks that agree go on to agree, and those
findings remain that tell nothing of a name in the catalogue. -/
theorem line_within (h : a.Agrees b) (number : Nat) (tokens : List Token) :
    (a.line small number tokens).1.Agrees (b.line large number tokens).1 ∧
      (b.line large number tokens).2.findings =
        (a.line small number tokens).2.findings.filter (Finding.remains large) := by
  cases h with
  | lineShape =>
      exact ⟨.lineShape, (lineShape_ordered.filter_remains (by decide) (by decide)).symm⟩
  | blocks stack =>
      exact ⟨.blocks _, ((blockLine_ordered stack).filter_remains (by decide) (by decide)).symm⟩
  | declarations scopes =>
      obtain ⟨hagrees, hfindings⟩ :=
        (scopes.declareHead tokens).identifiers hwithin (identifierRoles tokens)
      exact ⟨.declarations hagrees, hfindings⟩
  | calls functions =>
      refine ⟨.calls _, ?_⟩
      have hloop : (endlessFindings number tokens).filter (Finding.remains large) =
          endlessFindings number tokens := by
        refine List.filter_eq_self.mpr fun finding hfinding => ?_
        obtain ⟨_, first, _, rfl⟩ := mem_endlessFindings_iff.mp hfinding
        rfl
      simp only [line, Functions.line, List.filter_append, hloop,
        unknownFindings_within hwithin]

/-- One line through several checks. -/
lemma lineAll_within (h : List.Forall₂ Agrees as bs) (number : Nat) (tokens : List Token) :
    List.Forall₂ Agrees (lineAll small number tokens as).1 (lineAll large number tokens bs).1 ∧
      (lineAll large number tokens bs).2.findings =
        (lineAll small number tokens as).2.findings.filter (Finding.remains large) := by
  induction h with
  | nil => exact ⟨.nil, rfl⟩
  | cons hfirst _ ih =>
      obtain ⟨hagrees, hfindings⟩ := line_within hwithin hfirst number tokens
      obtain ⟨hrest, hlater⟩ := ih
      refine ⟨.cons hagrees hrest, ?_⟩
      simp only [lineAll, Notes.append, List.filter_append, hfindings, hlater]

/-- **The lines of a script under a larger catalogue.** -/
theorem overLines_within (h : List.Forall₂ Agrees as bs) (lines : List TokenLine) :
    (overLines large bs lines).2.findings =
      (overLines small as lines).2.findings.filter (Finding.remains large) := by
  induction lines generalizing as bs with
  | nil => rfl
  | cons line rest ih =>
      obtain ⟨hagrees, hfindings⟩ := lineAll_within hwithin h line.number line.tokens
      simp only [overLines, Notes.append, List.filter_append, hfindings, ih hagrees]

end Within

end Checker

/-! ### Scripts -/

section Scripts

variable {catalogue small large : Catalogue} {lines : List TokenLine}

/-- The findings on lines under a larger catalogue. -/
lemma findings_within (hwithin : small.Within large) (lines : List TokenLine) :
    (overLines large Checker.standard lines).2.findings =
      (overLines small Checker.standard lines).2.findings.filter (Finding.remains large) :=
  Checker.overLines_within hwithin
    (List.forall₂_same.mpr fun checker _ => Checker.Agrees.refl checker) lines

/-- What is told on lines still holds under the catalogue itself. -/
lemma remains_of_mem_overLines {finding : Finding}
    (h : finding ∈ (overLines catalogue Checker.standard lines).2.findings) :
    finding.remains catalogue = true :=
  List.filter_eq_self.mp (findings_within (fun _ => id) lines).symm finding h

/-- The same variables are kept for the end of a script under every catalogue. -/
lemma introduced_afterLines_congr (small large : Catalogue) (lines : List TokenLine) :
    (Scope.empty.afterLines large lines).introduced.reverse =
      (Scope.empty.afterLines small lines).introduced.reverse := by
  rw [introduced_afterLines_eq, introduced_afterLines_eq]

/-- A use that is recorded under a larger catalogue is recorded. -/
lemma UseRecorded.within {name : List Char} (hwithin : small.Within large)
    (h : UseRecorded large lines name) : UseRecorded small lines name := by
  obtain ⟨hlarge, huses⟩ := h
  rw [Bool.eq_false_iff] at hlarge
  exact ⟨Bool.eq_false_iff.mpr (mt (hwithin name) hlarge), huses⟩

/-- The variables that are not used are not used under a larger catalogue. -/
lemma unusedIssues_within (hwithin : small.Within large) (lines : List TokenLine) :
    (unusedIssues small lines).Sublist (unusedIssues large lines) := by
  rw [unusedIssues_eq, unusedIssues_eq, introduced_afterLines_congr small large]
  refine List.Sublist.map _ (List.monotone_filter_right _ fun entry hunused => ?_)
  rw [Bool.not_eq_true', Bool.eq_false_iff, ne_eq, Scope.uses_afterLines_iff] at hunused ⊢
  exact fun huse => hunused (huse.within hwithin)

/-- Catalogues that hold the same names have the same findings. -/
theorem allFindings_congr (lines : List TokenLine) (hwithin : small.Within large)
    (hback : large.Within small) :
    allFindings large lines = allFindings small lines := by
  have hcontains : ∀ name, large.contains name = small.contains name := fun name =>
    Bool.eq_iff_iff.mpr ⟨hback name, hwithin name⟩
  have hlines : (overLines large Checker.standard lines).2.findings =
      (overLines small Checker.standard lines).2.findings := by
    rw [findings_within hwithin]
    refine List.filter_eq_self.mpr fun finding hfinding => ?_
    have hremains := remains_of_mem_overLines hfinding
    simpa only [Finding.remains, hcontains] using hremains
  have hunused : (Scope.empty.afterLines large lines).unusedFindings =
      (Scope.empty.afterLines small lines).unusedFindings := by
    rw [Scope.unusedFindings, Scope.unusedFindings, introduced_afterLines_congr small large]
    refine congrArg (List.map _) (List.filter_congr fun entry _ => congrArg (!·) ?_)
    rw [Bool.eq_iff_iff, Scope.uses_afterLines_iff, Scope.uses_afterLines_iff]
    exact ⟨fun huse => huse.within hwithin, fun huse => huse.within hback⟩
  rw [allFindings_eq, allFindings_eq, hlines, hunused]

end Scripts

/-! ### One more name -/

/-- The issue tells a problem of a name, whatever the case of its letters. -/
def Issue.Tells (make : String → Problem) (name : String) (issue : Issue) : Prop :=
  ∃ spelled : String, issue.code = (make spelled).code ∧ issue.message = (make spelled).message ∧
    Text.sameName name.toList spelled.toList = true

/-- The issue of a finding tells what the finding tells. -/
lemma Issue.tells_ofFinding_iff {make : String → Problem} {name : String} {finding : Finding} :
    (Issue.ofFinding finding).Tells make name ↔
      ∃ spelled, finding.problem = make spelled ∧
        Text.sameName name.toList spelled.toList = true := by
  constructor
  · rintro ⟨spelled, hcode, hmessage, hname⟩
    exact ⟨spelled, Problem.eq_of_message hcode hmessage, hname⟩
  · rintro ⟨spelled, hproblem, hname⟩
    refine ⟨spelled, ?_, ?_, hname⟩
    · rw [← hproblem]
      rfl
    · rw [← hproblem]
      rfl

/-- The settings with other extra names. -/
def Settings.withBuiltins (settings : Settings) (names : List String) : Settings :=
  { settings with extraBuiltins := names }

/-- Extra names that are identifiers keep the rules on settings. -/
lemma Settings.violation?_withBuiltins {settings : Settings} {names : List String}
    (haccepted : settings.violation? = none)
    (h : ∀ name ∈ names, Token.isValidIdentifier name.toList = true) :
    (settings.withBuiltins names).violation? = none := by
  have hnone : (names.filter fun name => !Token.isValidIdentifier name.toList) = [] := by
    rw [List.filter_eq_nil_iff]
    intro name hname
    rw [h name hname]
    decide
  rw [violation?, List.head?_eq_none_iff, violations, List.append_eq_nil_iff,
    List.append_eq_nil_iff, List.append_eq_nil_iff] at haccepted ⊢
  obtain ⟨⟨⟨hthresholds, hweights⟩, _⟩, hmarkers⟩ := haccepted
  exact ⟨⟨⟨hthresholds, hweights⟩, List.map_eq_nil_iff.mpr hnone⟩, hmarkers⟩

/-- The analyzer with other extra names. -/
def Analyzer.withBuiltins (analyzer : Analyzer) (names : List String)
    (h : ∀ name ∈ names, Token.isValidIdentifier name.toList = true) : Analyzer :=
  ⟨analyzer.settings.withBuiltins names,
    Settings.violation?_withBuiltins analyzer.accepted h⟩

open scoped Classical in
/-- The verdict under one more built-in name. -/
structure Verdict.Grown (name : String) (small large : Verdict) : Prop where
  /-- The errors are the same, in the same order, without those that tell the name to be
  undeclared. -/
  errors : large.errors = small.errors.filter fun issue => ¬ issue.Tells .undeclared name
  /-- So are the warnings of unknown functions, without those that tell it of the name. -/
  unknown : large.warnings.filter (fun issue => issue.code = .unknownFunction) =
    (small.warnings.filter fun issue => issue.code = .unknownFunction).filter
      fun issue => ¬ issue.Tells .unknownFunction name
  /-- The warnings of redeclared variables and endless loops are the same. -/
  unchanged : ∀ code, code ≠ .unknownFunction → code ≠ .unusedVariable →
    large.warnings.filter (fun issue => issue.code = code) =
      small.warnings.filter fun issue => issue.code = code
  /-- The warnings of unused variables are there again, in the same order. -/
  unused : (small.warnings.filter fun issue => issue.code = .unusedVariable).Sublist
    (large.warnings.filter fun issue => issue.code = .unusedVariable)
  /-- Where there are more of them, they tell it of the name. -/
  unused_new :
    (large.warnings.filter fun issue => issue.code = .unusedVariable).filter
        (fun issue => ¬ issue.Tells .unused name) =
      (small.warnings.filter fun issue => issue.code = .unusedVariable).filter
        fun issue => ¬ issue.Tells .unused name
  suggestions : large.suggestions = small.suggestions
  performance : large.performance = small.performance

section Grown

variable {settings : Settings} {names : List String} {name : String} {lines : List TokenLine}

/-- A catalogue with one more name. -/
lemma Catalogue.contains_concat (names : List String) (name : String) (text : List Char) :
    Catalogue.contains ⟨names ++ [name]⟩ text =
      (Catalogue.contains ⟨names⟩ text || Text.sameName name.toList text) := by
  simp [contains, Builtin.isNamedIn, Bool.or_assoc]

/-- A catalogue with more names is larger. -/
lemma Catalogue.within_of_subset {names more : List String} (h : names ⊆ more) :
    Catalogue.Within ⟨names⟩ ⟨more⟩ := by
  intro text htext
  rw [contains, Bool.or_eq_true, Builtin.isNamedIn, List.any_eq_true] at htext ⊢
  refine htext.imp_right ?_
  rintro ⟨known, hknown, hname⟩
  exact ⟨known, h hknown, hname⟩

open scoped Classical in
/-- The issues about lines under one more name. -/
lemma lineIssues_concat (names : List String) (name : String) (lines : List TokenLine) :
    lineIssues ⟨names ++ [name]⟩ lines =
      (lineIssues ⟨names⟩ lines).filter fun issue =>
        ¬ issue.Tells .undeclared name ∧ ¬ issue.Tells .unknownFunction name := by
  have hwithin : Catalogue.Within ⟨names⟩ ⟨names ++ [name]⟩ :=
    Catalogue.within_of_subset (List.subset_append_left _ _)
  rw [lineIssues, lineIssues, findings_within hwithin, List.filter_map]
  refine congrArg (List.map _) (List.filter_congr fun finding hfinding => ?_)
  have hremains := remains_of_mem_overLines hfinding
  rw [Bool.eq_iff_iff, Function.comp_apply, decide_eq_true_iff, Issue.tells_ofFinding_iff,
    Issue.tells_ofFinding_iff]
  obtain ⟨place, problem⟩ := finding
  cases problem <;> simp_all [Finding.remains, Catalogue.contains_concat]

/-- Issues tell problems under their codes. -/
lemma Issue.Tells.code_eq {make : String → Problem} {issue : Issue} (h : issue.Tells make name) :
    ∃ spelled, issue.code = (make spelled).code := by
  obtain ⟨spelled, hcode, _⟩ := h
  exact ⟨spelled, hcode⟩

/-- The issues about lines have the severities of their codes. -/
lemma isError_of_mem_lineIssues {catalogue : Catalogue} {issue : Issue}
    (h : issue ∈ lineIssues catalogue lines) :
    issue.isError = (issue.code.severity == .error) := by
  obtain ⟨finding, _, rfl⟩ := List.mem_map.mp h
  rfl

/-- The warnings under a code other than that of unused variables are about lines. -/
lemma warnings_filter_code (settings : Settings) (lines : List TokenLine) {code : IssueCode}
    (hcode : code ≠ .unusedVariable) :
    (verdictOn settings lines).warnings.filter (fun issue => issue.code = code) =
      ((lineIssues settings.catalogue lines).filter fun issue => !issue.isError).filter
        fun issue => issue.code = code := by
  have hnone : (unusedIssues settings.catalogue lines).filter (fun issue => issue.code = code) =
      [] := by
    rw [List.filter_eq_nil_iff]
    intro issue hissue
    rw [(code_of_mem_unusedIssues hissue).1, decide_eq_true_iff]
    exact hcode.symm
  rw [warnings_verdictOn, List.filter_append, hnone, List.append_nil]

/-- The warnings of unused variables are told at the end of the script. -/
lemma warnings_filter_unused (settings : Settings) (h : LinesOrdered lines) :
    (verdictOn settings lines).warnings.filter (fun issue => issue.code = .unusedVariable) =
      unusedIssues settings.catalogue lines :=
  (warnings_endsWithCode settings h).filter_eq

open scoped Classical in
/-- The errors under one more name. -/
lemma errors_concat (settings : Settings) (names : List String) (name : String)
    (lines : List TokenLine) :
    (verdictOn (settings.withBuiltins (names ++ [name])) lines).errors =
      (verdictOn (settings.withBuiltins names) lines).errors.filter
        fun issue => ¬ issue.Tells .undeclared name := by
  have hunclosed : (unclosedIssues lines).filter
      (fun issue => ¬ issue.Tells .undeclared name) = unclosedIssues lines := by
    refine List.filter_eq_self.mpr fun issue hissue => decide_eq_true fun htells => ?_
    obtain ⟨_, hcode⟩ := htells.code_eq
    rw [(code_of_mem_unclosedIssues hissue).1] at hcode
    cases hcode
  rw [errors_verdictOn, errors_verdictOn, List.filter_append, hunclosed]
  refine congrArg (· ++ _) ?_
  have hlines := lineIssues_concat names name lines
  rw [Settings.catalogue, Settings.withBuiltins, hlines, List.filter_filter, List.filter_filter]
  refine List.filter_congr fun issue hissue => ?_
  -- an error does not tell of an unknown function
  have hunknown : issue.isError = true → ¬ issue.Tells .unknownFunction name := by
    intro herror htells
    obtain ⟨_, hcode⟩ := htells.code_eq
    rw [isError_of_mem_lineIssues hissue, hcode] at herror
    cases herror
  by_cases herror : issue.isError = true
  · simp [herror, hunknown herror]
  · simp [herror]

open scoped Classical in
/-- The warnings about lines under one more name. -/
lemma warnings_concat (settings : Settings) (names : List String) (name : String)
    (lines : List TokenLine) {code : IssueCode} (hcode : code ≠ .unusedVariable) :
    (verdictOn (settings.withBuiltins (names ++ [name])) lines).warnings.filter
        (fun issue => issue.code = code) =
      ((verdictOn (settings.withBuiltins names) lines).warnings.filter
        fun issue => issue.code = code).filter
          fun issue => ¬ issue.Tells .unknownFunction name := by
  rw [warnings_filter_code _ _ hcode, warnings_filter_code _ _ hcode]
  have hlines := lineIssues_concat names name lines
  rw [Settings.catalogue, Settings.withBuiltins, hlines, List.filter_filter, List.filter_filter,
    List.filter_filter, List.filter_filter]
  refine List.filter_congr fun issue hissue => ?_
  -- a warning does not tell of an undeclared variable
  have hundeclared : ¬ issue.isError = true → ¬ issue.Tells .undeclared name := by
    intro hwarning htells
    obtain ⟨_, hcode⟩ := htells.code_eq
    rw [isError_of_mem_lineIssues hissue, hcode] at hwarning
    exact hwarning rfl
  by_cases herror : issue.isError = true
  · simp [herror]
  · simp [herror, hundeclared herror, Bool.and_comm]

open scoped Classical in
/-- The unused variables under one more name, but for those of the name. -/
lemma unusedIssues_concat (names : List String) (name : String) (lines : List TokenLine) :
    (unusedIssues ⟨names ++ [name]⟩ lines).filter (fun issue => ¬ issue.Tells .unused name) =
      (unusedIssues ⟨names⟩ lines).filter fun issue => ¬ issue.Tells .unused name := by
  rw [unusedIssues_eq, unusedIssues_eq, introduced_afterLines_congr ⟨names⟩ ⟨names ++ [name]⟩,
    List.filter_map, List.filter_map, List.filter_filter, List.filter_filter]
  refine congrArg (List.map _) (List.filter_congr fun entry _ => ?_)
  by_cases htells : entry.unusedIssue.Tells .unused name
  · simp [htells]
  · have hother : Text.sameName name.toList entry.name = false := by
      rw [Bool.eq_false_iff]
      intro hsame
      refine htells (Issue.tells_ofFinding_iff.mpr ⟨_, rfl, ?_⟩)
      rwa [String.toList_ofList]
    have huses : (Scope.empty.afterLines ⟨names ++ [name]⟩ lines).uses entry.name =
        (Scope.empty.afterLines ⟨names⟩ lines).uses entry.name := by
      rw [Bool.eq_iff_iff, Scope.uses_afterLines_iff, Scope.uses_afterLines_iff, UseRecorded,
        UseRecorded, Catalogue.contains_concat, hother, Bool.or_false]
    rw [huses]

open scoped Classical in
/-- **One more name**: the verdict on a script with these lines. -/
theorem verdictOn_grown (settings : Settings) (names : List String) (name : String)
    (h : LinesOrdered lines) :
    (verdictOn (settings.withBuiltins names) lines).Grown name
      (verdictOn (settings.withBuiltins (names ++ [name])) lines) where
  errors := errors_concat settings names name lines
  unknown := warnings_concat settings names name lines (by decide)
  unchanged := by
    intro code hunknown hunused
    rw [warnings_concat settings names name lines hunused, List.filter_eq_self]
    intro issue hissue
    refine decide_eq_true fun htells => hunknown ?_
    obtain ⟨_, hcode⟩ := htells.code_eq
    exact (of_decide_eq_true (List.mem_filter.mp hissue).2).symm.trans hcode
  unused := by
    rw [warnings_filter_unused _ h, warnings_filter_unused _ h]
    exact unusedIssues_within (Catalogue.within_of_subset (List.subset_append_left _ _)) lines
  unused_new := by
    rw [warnings_filter_unused _ h, warnings_filter_unused _ h]
    exact unusedIssues_concat names name lines
  suggestions := rfl
  performance := rfl

/-- A script that is valid stays so under a larger catalogue. -/
lemma isValid_within {names more : List String} (hsubset : names ⊆ more)
    (hvalid : (verdictOn (settings.withBuiltins names) lines).isValid = true) :
    (verdictOn (settings.withBuiltins more) lines).isValid = true := by
  have hnone : (verdictOn (settings.withBuiltins names) lines).errors = [] :=
    List.isEmpty_iff.mp hvalid
  have hlines : (lineIssues ⟨more⟩ lines).Sublist (lineIssues ⟨names⟩ lines) := by
    rw [lineIssues, lineIssues, findings_within (Catalogue.within_of_subset hsubset)]
    exact List.filter_sublist.map _
  have herrors : (verdictOn (settings.withBuiltins more) lines).errors.Sublist
      (verdictOn (settings.withBuiltins names) lines).errors := by
    rw [errors_verdictOn, errors_verdictOn]
    exact (hlines.filter _).append (.refl _)
  rw [hnone] at herrors
  exact List.isEmpty_iff.mpr (List.sublist_nil.mp herrors)

end Grown

/-- **Extra names**: one more built-in name takes away the errors and the warnings that tell
it to be undeclared or unknown, and may add that a variable of this name is unused. A script
stays valid under more names, and neither their order nor their repetition matters. -/
theorem analyze_withBuiltins (analyzer : Analyzer) (names : List String)
    (h : ∀ name ∈ names, Token.isValidIdentifier name.toList = true) :
    (∀ name (hname : ∀ other ∈ names ++ [name], Token.isValidIdentifier other.toList = true),
      ∀ source, ((analyzer.withBuiltins names h).analyze source).Grown name
        ((analyzer.withBuiltins (names ++ [name]) hname).analyze source)) ∧
    ∀ more (hmore : ∀ name ∈ more, Token.isValidIdentifier name.toList = true), names ⊆ more →
      (∀ source, ((analyzer.withBuiltins names h).analyze source).isValid = true →
        ((analyzer.withBuiltins more hmore).analyze source).isValid = true) ∧
      (more ⊆ names → ∀ source, (analyzer.withBuiltins more hmore).analyze source =
        (analyzer.withBuiltins names h).analyze source) := by
  refine ⟨fun name _ source => ?_, fun more _ hsubset => ⟨fun source hvalid => ?_, ?_⟩⟩
  · exact verdictOn_grown _ _ _ (linesOrdered_ofSource _ _)
  · exact isValid_within hsubset hvalid
  · intro hback source
    have hfindings := allFindings_congr
      (TokenLine.ofSource analyzer.settings.markers source.toList)
      (Catalogue.within_of_subset hsubset) (Catalogue.within_of_subset hback)
    exact congrArg (fun findings => Verdict.ofIssues (findings.map Issue.ofFinding) _ _) hfindings

/-- A name that a script declares in one spelling, and uses and calls before in others. -/
theorem analyze_withBuiltins_spellings :
    ((Analyzer.standard.withBuiltins [] (by decide)).analyze
        "Print(size)\nSIZE(1)\nvar Size = 2").isValid = false ∧
      ((Analyzer.standard.withBuiltins ["Size"] (by decide)).analyze
        "Print(size)\nSIZE(1)\nvar Size = 2").isValid = true ∧
      ((Analyzer.standard.withBuiltins [] (by decide)).analyze
          "Print(size)\nSIZE(1)\nvar Size = 2").Grown "Size"
        ((Analyzer.standard.withBuiltins ["Size"] (by decide)).analyze
          "Print(size)\nSIZE(1)\nvar Size = 2") :=
  ⟨by decide +kernel, by decide +kernel,
    (analyze_withBuiltins Analyzer.standard [] (by decide)).1 "Size" (by decide) _⟩

end ScriptLint
