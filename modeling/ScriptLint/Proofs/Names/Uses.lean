import Mathlib
import ScriptLint.Proofs.Messages
import ScriptLint.Proofs.Names.Declarations
import ScriptLint.Proofs.Places
import ScriptLint.Proofs.Validity

/-!
The variables that are told to be unused.

* `UsesName`: the tokens of a line use a name.
* `Scope.mem_used_afterLines`: the names that are used after some lines of a script are
  those that one of the lines uses, built-in names apart.
* `unused_mem_findings_iff`: which declarations of variables are told to be unused.
* `Verdict.WarnsUnused`, `not_usesName_of_warnsUnused`: a verdict that warns of an unused
  variable tells the truth, unless the name is built in.
* `not_forall_not_usesName_of_warnsUnused`: a built-in name that the script declares is told to be
  unused although it is used.
-/

namespace ScriptLint

/-- The tokens of a line use this name as a variable. -/
def UsesName (tokens : List Token) (name : List Char) : Prop :=
  ∃ index, VariableUse tokens index ∧ SpelledAt tokens index name

/-! ### The names used so far -/

namespace Scope

variable {catalogue : Catalogue} {scope : Scope} {tokens : List Token} {name : List Char}
  {number : Nat} {site : Site} {role : Role} {roles : List (Site × Role)}

lemma uses_iff : scope.uses name = true ↔ name ∈ scope.used := by
  rw [uses, List.contains_iff_mem]

/-- One identifier is recorded if it is a use of a name that is not built in. -/
lemma mem_used_identifier :
    name ∈ (scope.identifier catalogue number (site, role)).1.used ↔
      name ∈ scope.used ∨
        (role = .use ∧ catalogue.contains name = false ∧ site.token.lexeme = name) := by
  cases role with
  | use =>
      by_cases hbuiltin : catalogue.contains site.token.lexeme = true
      · simp only [identifier, recordUse, hbuiltin, if_true, true_and]
        refine ⟨.inl, ?_⟩
        rintro (hmem | ⟨hname, rfl⟩)
        · exact hmem
        · rw [hbuiltin] at hname
          cases hname
      · -- the name is recorded whether it is a finding or not
        have hrecorded : (scope.recordUse catalogue site.token.lexeme
            ⟨number, site.token.column⟩).1.used =
              if scope.uses site.token.lexeme then scope.used
              else site.token.lexeme :: scope.used := by
          rw [recordUse, if_neg hbuiltin]
          split_ifs <;> rfl
        have hbuiltin := Bool.eq_false_iff.mpr hbuiltin
        rw [identifier, hrecorded]
        split_ifs with huses
        · refine ⟨.inl, ?_⟩
          rintro (hmem | ⟨_, _, rfl⟩)
          · exact hmem
          · exact uses_iff.mp huses
        · rw [List.mem_cons, or_comm]
          refine or_congr_right ⟨?_, fun h => h.2.2.symm⟩
          rintro rfl
          exact ⟨rfl, hbuiltin, rfl⟩
  | varTarget =>
      simp only [identifier, declareVariable]
      split_ifs <;> simp
  | _ => simp [identifier]

/-- Several identifiers record the names that one of them uses. -/
lemma mem_used_identifiers :
    name ∈ (scope.identifiers catalogue number roles).1.used ↔
      name ∈ scope.used ∨ (catalogue.contains name = false ∧
        ∃ site, (site, Role.use) ∈ roles ∧ site.token.lexeme = name) := by
  induction roles generalizing scope with
  | nil => simp [identifiers]
  | cons first rest ih =>
      obtain ⟨site, role⟩ := first
      rw [identifiers, ih, mem_used_identifier, or_assoc]
      refine or_congr_right ?_
      constructor
      · rintro (⟨rfl, hbuiltin, hname⟩ | ⟨hbuiltin, other, hmem, hname⟩)
        · exact ⟨hbuiltin, site, List.mem_cons_self, hname⟩
        · exact ⟨hbuiltin, other, List.mem_cons_of_mem _ hmem, hname⟩
      · rintro ⟨hbuiltin, other, hmem, hname⟩
        rcases List.mem_cons.mp hmem with heq | hmem
        · obtain ⟨rfl, rfl⟩ := Prod.mk.inj heq
          exact .inl ⟨rfl, hbuiltin, hname⟩
        · exact .inr ⟨hbuiltin, other, hmem, hname⟩

/-- The identifiers in the role of a use are the uses of variables. -/
lemma exists_use_iff :
    (∃ site, (site, Role.use) ∈ identifierRoles tokens ∧ site.token.lexeme = name) ↔
      UsesName tokens name := by
  have hrole : ∀ {p : Nat → Prop},
      (∃ site, (site, Role.use) ∈ identifierRoles tokens ∧ p site.index ∧
        site.token.lexeme = name) ↔
          ∃ index, p index ∧ VariableUse tokens index ∧ SpelledAt tokens index name :=
    exists_role_iff (fun _ huse => huse.identifier) fun _ hsite hident =>
      role_eq_use_iff hsite hident
  rw [UsesName]
  simpa only [true_and] using hrole (p := fun _ => True)

/-- After a line, the names that it uses are used too, built-in names apart. -/
lemma mem_used_line :
    name ∈ (scope.line catalogue number tokens).1.used ↔
      name ∈ scope.used ∨ (catalogue.contains name = false ∧ UsesName tokens name) := by
  rw [line, mem_used_identifiers, used_declareHead, exists_use_iff]

/-- After several lines, the names that one of them uses are used too, built-in names
apart. -/
theorem mem_used_afterLines {lines : List TokenLine} :
    name ∈ (scope.afterLines catalogue lines).used ↔
      name ∈ scope.used ∨
        (catalogue.contains name = false ∧ ∃ line ∈ lines, UsesName line.tokens name) := by
  induction lines generalizing scope with
  | nil => simp [afterLines]
  | cons line rest ih =>
      rw [afterLines, ih, mem_used_line, or_assoc]
      simp only [List.mem_cons, exists_eq_or_imp, and_or_left]

end Scope

/-! ### The unused variables of a script -/

section Script

variable {catalogue : Catalogue} {lines : List TokenLine}

/-- A declaration of a variable is told to be unused exactly when it is the first of its
name, and the name is built in or used nowhere in the script. -/
theorem unused_mem_findings_iff {place : Position} {text : String} :
    ⟨place, .unused text⟩ ∈
        (Checker.declarations Scope.empty).findings catalogue (Visit.script lines) ↔
      ∃ before line, LineAfter lines before line ∧
        ∃ index token, line.tokens[index]? = some token ∧
          place = ⟨line.number, token.column⟩ ∧ text = token.name ∧
            VarTarget line.tokens index ∧
              ¬ DeclaredBefore before line.tokens index token.lexeme ∧
                (catalogue.contains token.lexeme = true ∨
                  ∀ other ∈ lines, ¬ UsesName other.tokens token.lexeme) := by
  have hunused : ∀ name : List Char,
      (Scope.empty.afterLines catalogue lines).uses name = false ↔
        (catalogue.contains name = true ∨ ∀ line ∈ lines, ¬ UsesName line.tokens name) := by
    intro name
    rw [← Bool.not_eq_true, Scope.uses_iff, Scope.mem_used_afterLines]
    simp [Scope.empty, imp_iff_not_or]
  rw [mem_declarations_findings_iff]
  constructor
  · rintro (⟨_, _, _, _, _, _, _, h⟩ | ⟨entry, hentry, huses, hfinding⟩)
    · cases h
    · obtain ⟨before, line, hafter, index, token, htoken, htarget, hnew, rfl⟩ :=
        Scope.mem_introduced_afterLines.mp hentry
      obtain ⟨rfl, hproblem⟩ := Finding.mk.inj hfinding
      exact ⟨before, line, hafter, index, token, htoken, rfl, Problem.unused.inj hproblem,
        htarget, hnew, (hunused _).mp huses⟩
  · rintro ⟨before, line, hafter, index, token, htoken, rfl, rfl, htarget, hnew, h⟩
    exact .inr ⟨⟨token.lexeme, ⟨line.number, token.column⟩⟩,
      Scope.mem_introduced_afterLines.mpr
        ⟨before, line, hafter, index, token, htoken, htarget, hnew, rfl⟩,
      (hunused _).mpr h, rfl⟩

/-- Only the check of variables tells that one is unused. -/
lemma unused_mem_allFindings_iff {place : Position} {text : String} :
    ⟨place, .unused text⟩ ∈ allFindings catalogue lines ↔
      ⟨place, .unused text⟩ ∈
        (Checker.declarations Scope.empty).findings catalogue (Visit.script lines) := by
  have hwarning : ¬ (⟨place, .unused text⟩ : Finding).IsError := fun h => by cases h
  rw [mem_allFindings_iff]
  constructor
  · rintro ⟨checker, hchecker, h⟩
    simp only [Checker.standard, List.mem_cons, List.not_mem_nil, or_false] at hchecker
    rcases hchecker with rfl | rfl | rfl | rfl
    · obtain ⟨line, _, hmem⟩ := mem_lineShape_findings_iff.mp h
      exact absurd (isError_of_lineShape hmem) hwarning
    · exact absurd (isError_of_blocks h) hwarning
    · exact h
    · rcases problem_of_calls h with ⟨_, hproblem⟩ | hproblem <;> cases hproblem
  · intro h
    exact ⟨.declarations Scope.empty, by simp [Checker.standard], h⟩

end Script

/-! ### Warnings -/

/-- The verdict warns that the variable of this name is unused. -/
def Verdict.WarnsUnused (verdict : Verdict) (name : String) : Prop :=
  ∃ issue ∈ verdict.warnings,
    issue.code = .unusedVariable ∧ issue.message = (Problem.unused name).message

/-- A warning of an unused variable comes from the check of variables. -/
lemma Verdict.WarnsUnused.exists_finding {settings : Settings} {lines : List TokenLine}
    {name : String} (h : (verdictOn settings lines).WarnsUnused name) :
    ∃ place, ⟨place, .unused name⟩ ∈
      (Checker.declarations Scope.empty).findings settings.catalogue (Visit.script lines) := by
  obtain ⟨issue, hissue, hcode, hmessage⟩ := h
  obtain ⟨⟨place, problem⟩, hfinding, rfl⟩ :=
    mem_issues_verdictOn.mp (List.mem_append_right _ hissue)
  obtain rfl : problem = .unused name := Problem.eq_of_message hcode hmessage
  exact ⟨place, unused_mem_allFindings_iff.mp hfinding⟩

/-- **Unused variables**: a script whose verdict warns that a variable is unused uses this
name on no line, unless the name is built in. -/
theorem not_usesName_of_warnsUnused {analyzer : Analyzer} {source name : String}
    (hname : analyzer.isBuiltin name = false)
    (h : (analyzer.analyze source).WarnsUnused name) :
    ∀ line ∈ TokenLine.ofSource analyzer.settings.markers source.toList,
      ¬ UsesName line.tokens name.toList := by
  obtain ⟨place, hfinding⟩ := h.exists_finding
  obtain ⟨_, _, _, _, token, _, _, rfl, _, _, hbuiltin | hunused⟩ :=
    unused_mem_findings_iff.mp hfinding
  · rw [Analyzer.isBuiltin, Token.name, String.toList_ofList, hbuiltin] at hname
    cases hname
  · rw [Token.name, String.toList_ofList]
    exact hunused

/-- A name that is called but not used as a variable. -/
theorem warnsUnused_of_called :
    Analyzer.standard.isBuiltin "size" = false ∧
      (Analyzer.standard.analyze "var size = 1\nsize(2)").WarnsUnused "size" ∧
        ∀ line ∈ TokenLine.ofSource Analyzer.standard.settings.markers
          "var size = 1\nsize(2)".toList, ¬ UsesName line.tokens "size".toList := by
  have hname : Analyzer.standard.isBuiltin "size" = false := by decide +kernel
  have hwarns : (Analyzer.standard.analyze "var size = 1\nsize(2)").WarnsUnused "size" := by
    rw [Verdict.WarnsUnused]
    decide +kernel
  exact ⟨hname, hwarns, not_usesName_of_warnsUnused hname hwarns⟩

/-- A built-in name that the script declares is told to be unused although it is used:
uses of built-in names are not recorded. -/
theorem not_forall_not_usesName_of_warnsUnused :
    ¬ ∀ source name : String, (Analyzer.standard.analyze source).WarnsUnused name →
      ∀ line ∈ TokenLine.ofSource Analyzer.standard.settings.markers source.toList,
        ¬ UsesName line.tokens name.toList := by
  intro h
  have hwarns : (Analyzer.standard.analyze "var Close = 1\nPrint(Close)").WarnsUnused
      "Close" := by
    rw [Verdict.WarnsUnused]
    decide +kernel
  obtain ⟨line, hline, huses⟩ : ∃ line ∈ TokenLine.ofSource Analyzer.standard.settings.markers
      "var Close = 1\nPrint(Close)".toList, ∃ entry ∈ identifierRoles line.tokens,
        entry.2 = Role.use ∧ entry.1.token.lexeme = "Close".toList := by
    decide +kernel
  obtain ⟨⟨site, role⟩, hmem, rfl, hname⟩ := huses
  exact h _ _ hwarns line hline (Scope.exists_use_iff.mp ⟨site, hmem, hname⟩)

end ScriptLint
