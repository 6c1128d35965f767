import Mathlib
import ScriptLint.Proofs.Order
import ScriptLint.Proofs.Places

/-!
The definitions and the calls of functions.

* `Defines`, `NamesFunction`, `CallSite`: a line that begins with the header of a function,
  the name of a definition at any place of a line, and a name that is called.
* `defines_iff`: a definition at the start of a line is the header of the line.
* `Functions.afterLines`, `mem_defined_afterLines`: the names that the headers of several
  lines define.
* `Occurrence.IsUnknownCall`, `unknown_findings_eq`: the check of calls tells of the calls
  whose names are not reserved and not defined so far, in order.
* `Analyzer.KnowsBehind`, `knowsBehind_leading`: a call behind a definition at the start of a
  line is not told to be unknown.
-/

namespace ScriptLint

/-! ### Definitions and calls on a line -/

/-- The line begins with the header of a function of this name. -/
def Defines (tokens : List Token) (name : List Char) : Prop :=
  KindAt tokens 0 (.keyword .function) ∧ KindAt tokens 1 .identifier ∧ SpelledAt tokens 1 name

/-- The name in a definition: the tokens `function`, the name and an opening parenthesis
stand in a row. -/
@[mk_iff]
structure NamesFunction (tokens : List Token) (index : Nat) : Prop where
  keyword : KindBefore tokens index (.keyword .function)
  identifier : KindAt tokens index .identifier
  opened : KindAt tokens (index + 1) (.delimiter .leftParen)

/-- A name that is called: a parenthesis is opened behind it, and it is not the name in a
definition. -/
@[mk_iff]
structure CallSite (tokens : List Token) (index : Nat) : Prop where
  identifier : KindAt tokens index .identifier
  opened : KindAt tokens (index + 1) (.delimiter .leftParen)
  not_named : ¬ KindBefore tokens index (.keyword .function)

section Decidable

variable (tokens : List Token) (index : Nat) (kind : TokenKind)

instance : Decidable (KindAt tokens index kind) :=
  decidable_of_iff (tokens[index]?.map Token.kind = some kind) (by simp [KindAt])

instance : Decidable (KindBefore tokens index kind) :=
  match index with
  | 0 => .isFalse (by simp [KindBefore])
  | before + 1 => decidable_of_iff (KindAt tokens before kind) (by simp [KindBefore])

instance : Decidable (NamesFunction tokens index) :=
  decidable_of_iff' _ (namesFunction_iff tokens index)

instance : Decidable (CallSite tokens index) :=
  decidable_of_iff' _ (callSite_iff tokens index)

instance (a b : Occurrence) : Decidable (a.Precedes b) :=
  inferInstanceAs (Decidable (_ ∨ _))

end Decidable

section Line

variable {tokens : List Token} {name : List Char} {token : Token}

/-- What a line defines is the name in its header. -/
lemma defines_iff :
    Defines tokens name ↔
      ∃ header, FunctionHeader.ofTokens? tokens = some header ∧ header.name.lexeme = name := by
  match tokens with
  | [] => simp [Defines, FunctionHeader.ofTokens?]
  | [_] => simp [Defines, FunctionHeader.ofTokens?]
  | first :: second :: rest =>
      rw [FunctionHeader.ofTokens?]
      by_cases hheader : first.isKeyword .function && second.isIdentifier
      · have hkinds : first.kind = .keyword .function ∧ second.kind = .identifier := by
          simpa using hheader
        simp [Defines, SpelledAt, hheader, hkinds]
      · have hkinds : ¬ (first.kind = .keyword .function ∧ second.kind = .identifier) := by
          simpa using hheader
        rw [if_neg hheader]
        refine iff_of_false ?_ (by simp)
        rintro ⟨hleads, hnamed, _⟩
        exact hkinds ⟨by simpa using hleads, by simpa using hnamed⟩

/-- A definition at the start of a line is the header of the line. -/
lemma NamesFunction.defines (h : NamesFunction tokens 1) (htoken : tokens[1]? = some token) :
    Defines tokens token.lexeme := by
  obtain ⟨before, hindex, hkeyword⟩ := h.keyword
  obtain rfl : before = 0 := (Nat.succ.inj hindex).symm
  exact ⟨hkeyword, h.identifier, token, htoken, rfl⟩

end Line

/-! ### Names defined so far -/

namespace Functions

variable {functions : Functions} {lines : List TokenLine} {name : List Char}

/-- The functions after several lines. -/
def afterLines : Functions → List TokenLine → Functions
  | functions, [] => functions
  | functions, line :: rest => afterLines (functions.define line.tokens) rest

lemma afterLines_concat (line : TokenLine) :
    functions.afterLines (lines ++ [line]) = (functions.afterLines lines).define line.tokens := by
  induction lines generalizing functions with
  | nil => rfl
  | cons first rest ih => exact ih

/-- A line defines the name in its header. -/
lemma mem_defined_define {tokens : List Token} :
    name ∈ (functions.define tokens).defined ↔ name ∈ functions.defined ∨ Defines tokens name := by
  rw [defines_iff, define]
  cases FunctionHeader.ofTokens? tokens with
  | none => simp
  | some header => simp [or_comm, eq_comm]

/-- The names defined after several lines are those in their headers. -/
theorem mem_defined_afterLines :
    name ∈ (functions.afterLines lines).defined ↔
      name ∈ functions.defined ∨ ∃ line ∈ lines, Defines line.tokens name := by
  induction lines generalizing functions with
  | nil => simp [afterLines]
  | cons line rest ih =>
      rw [afterLines, ih, mem_defined_define, or_assoc]
      simp only [List.mem_cons, exists_eq_or_imp]

/-- The check of calls goes through the lines with the functions of their headers. -/
lemma after_calls (catalogue : Catalogue) :
    (Checker.calls functions).after catalogue (lines.map .line) =
      .calls (functions.afterLines lines) := by
  induction lines generalizing functions with
  | nil => rfl
  | cons line rest ih => exact ih

end Functions

/-! ### Unknown calls -/

namespace Occurrence

/-- The name is defined when the occurrence is looked at, by the header of its own line or
of an earlier one. -/
def IsDefined (occurrence : Occurrence) : Prop :=
  ∃ line ∈ occurrence.before ++ [occurrence.line], Defines line.tokens occurrence.token.lexeme

/-- A call of a name that is neither reserved nor defined. -/
@[mk_iff]
structure IsUnknownCall (catalogue : Catalogue) (occurrence : Occurrence) : Prop where
  called : CallSite occurrence.line.tokens occurrence.index
  not_reserved : catalogue.reserves occurrence.token.lexeme = false
  undefined : ¬ occurrence.IsDefined

end Occurrence

section Unknown

variable (catalogue : Catalogue)

/-- A call is known if its name is reserved or defined. -/
lemma knows_iff {before : List TokenLine} {line : TokenLine} {index : Nat} {token : Token} :
    ((Functions.empty.afterLines before).define line.tokens).knows catalogue token.lexeme = true ↔
      catalogue.reserves token.lexeme = true ∨
        (Occurrence.mk before line index token).IsDefined := by
  rw [Functions.knows, Bool.or_eq_true, List.contains_iff_mem, ← Functions.afterLines_concat,
    Functions.mem_defined_afterLines]
  simp [Functions.empty, Occurrence.IsDefined]

open scoped Classical in
/-- What the check of calls says of unknown names on a line that follows other lines. -/
lemma unknownFindings_eq (before : List TokenLine) (line : TokenLine) :
    ((Functions.empty.afterLines before).define line.tokens).unknownFindings catalogue
        line.number line.tokens =
      ((Occurrence.onLine before line).filter fun occurrence =>
        occurrence.IsUnknownCall catalogue).map fun occurrence =>
          occurrence.finding .unknownFunction := by
  rw [Functions.unknownFindings, calls, Occurrence.onLine, zipIdx_eq_map_ofTokens,
    List.map_map, List.filter_map, List.filter_map, List.map_map, List.map_map,
    List.filter_filter]
  refine congrArg (List.map _) (List.filter_congr fun site hsite => ?_)
  have hknown := @knows_iff catalogue before line site.index site.token
  rw [Bool.eq_iff_iff]
  simp only [Function.comp_apply, Bool.and_eq_true, Bool.not_eq_true', ← Bool.not_eq_true,
    hknown, isCall_iff hsite, decide_eq_true_eq, Occurrence.isUnknownCall_iff, callSite_iff]
  tauto

open scoped Classical in
/-- **Unknown functions**: on the lines of a script, the check of calls tells of the calls of
names that are neither reserved nor defined, each once and in order. -/
theorem unknown_findings_eq (lines : List TokenLine) :
    ((Checker.calls Functions.empty).findings catalogue (lines.map .line)).filter
        (fun finding => finding.problem.code = .unknownFunction) =
      ((occurrences lines).filter fun occurrence =>
        occurrence.IsUnknownCall catalogue).map fun occurrence =>
          occurrence.finding .unknownFunction := by
  have hline : ∀ (functions : Functions) (line : TokenLine),
      (functions.line catalogue line.number line.tokens).2.filter
          (fun finding => finding.problem.code = .unknownFunction) =
        (functions.define line.tokens).unknownFindings catalogue line.number line.tokens := by
    intro functions line
    refine filter_append_eq_left (fun finding hfinding => ?_) fun finding hfinding => ?_
    · obtain ⟨call, _, rfl⟩ := List.mem_map.mp hfinding
      exact decide_eq_true rfl
    · obtain ⟨_, first, _, rfl⟩ := mem_endlessFindings_iff.mp hfinding
      exact decide_eq_false fun hcode => by cases hcode
  have hrun : ∀ before,
      ((Checker.calls (Functions.empty.afterLines before)).findings catalogue
          (lines.map .line)).filter (fun finding => finding.problem.code = .unknownFunction) =
        ((Occurrence.onLines before lines).filter fun occurrence =>
          occurrence.IsUnknownCall catalogue).map fun occurrence =>
            occurrence.finding .unknownFunction := by
    induction lines with
    | nil => exact fun _ => rfl
    | cons line rest ih =>
        intro before
        have hnext := ih (before ++ [line])
        rw [Functions.afterLines_concat] at hnext
        rw [List.map_cons, Checker.findings_cons, Occurrence.onLines, List.filter_append,
          List.filter_append, List.map_append, ← hnext, ← unknownFindings_eq, ← hline]
        rfl
  exact hrun []

/-- The check of variables tells of redeclared, undeclared and unused variables. -/
lemma problem_of_declarations {lines : List TokenLine} {finding : Finding}
    (h : finding ∈
      (Checker.declarations Scope.empty).findings catalogue (Visit.script lines)) :
    ∃ name, finding.problem ∈ [.redeclared name, .undeclared name, .unused name] := by
  rcases mem_declarations_findings_iff.mp h with
    ⟨_, _, _, _, token, _, _, hproblem⟩ | ⟨entry, _, _, rfl⟩
  · obtain ⟨place, problem⟩ := finding
    refine ⟨token.name, ?_⟩
    cases hproblem <;> simp
  · exact ⟨String.ofList entry.name, by simp⟩

/-- The findings on a script that tell of an unknown function are those on its unknown
calls. -/
theorem unknown_mem_allFindings_iff {lines : List TokenLine} {finding : Finding}
    (hcode : finding.problem.code = .unknownFunction) :
    finding ∈ allFindings catalogue lines ↔
      ∃ occurrence ∈ occurrences lines, occurrence.IsUnknownCall catalogue ∧
        occurrence.finding .unknownFunction = finding := by
  have hend : finding ∈ (Checker.calls Functions.empty).findings catalogue
      (Visit.script lines) ↔
        finding ∈ (Checker.calls Functions.empty).findings catalogue (lines.map .line) := by
    rw [Visit.script, Checker.findings_append, List.mem_append, Functions.after_calls]
    exact or_iff_left List.not_mem_nil
  have hcalls : finding ∈ (Checker.calls Functions.empty).findings catalogue
      (Visit.script lines) ↔ ∃ occurrence ∈ occurrences lines,
        occurrence.IsUnknownCall catalogue ∧ occurrence.finding .unknownFunction = finding := by
    have hfilter := congrArg (finding ∈ ·) (unknown_findings_eq catalogue lines)
    simpa [hcode, and_assoc, ← hend] using hfilter
  rw [mem_allFindings_iff, ← hcalls]
  constructor
  · rintro ⟨checker, hchecker, h⟩
    simp only [Checker.standard, List.mem_cons, List.not_mem_nil, or_false] at hchecker
    have hwarning : ¬ finding.IsError := by
      rw [Finding.IsError, hcode]
      decide
    rcases hchecker with rfl | rfl | rfl | rfl
    · obtain ⟨line, _, hmem⟩ := mem_lineShape_findings_iff.mp h
      exact absurd (isError_of_lineShape hmem) hwarning
    · exact absurd (isError_of_blocks h) hwarning
    · obtain ⟨name, hproblem⟩ := problem_of_declarations catalogue h
      simp only [List.mem_cons, List.not_mem_nil, or_false] at hproblem
      rcases hproblem with hproblem | hproblem | hproblem <;>
        · rw [hproblem] at hcode
          cases hcode
    · exact h
  · intro h
    exact ⟨.calls Functions.empty, by simp [Checker.standard], h⟩

end Unknown

/-! ### Calls behind a definition -/

/-- On this script the analyzer knows the functions that occurrences of a sort name: no call
behind one, in the same spelling, is told to be unknown. -/
def Analyzer.KnowsBehind (analyzer : Analyzer) (sort : Occurrence → Prop) (source : String) :
    Prop :=
  ∀ head ∈ occurrences (TokenLine.ofSource analyzer.settings.markers source.toList),
    ∀ call ∈ occurrences (TokenLine.ofSource analyzer.settings.markers source.toList),
      sort head → head.Precedes call → CallSite call.line.tokens call.index →
        call.token.lexeme = head.token.lexeme →
          ∀ issue ∈ (analyzer.analyze source).issues,
            issue.code = .unknownFunction → issue.place ≠ call.place

section Behind

variable {lines : List TokenLine} {head call : Occurrence}

/-- A call behind a definition at the start of a line is a call of a defined name. -/
lemma Occurrence.isDefined_of_leading (hhead : head ∈ occurrences lines) (hindex : head.index = 1)
    (hnames : NamesFunction head.line.tokens head.index) (hprecedes : head.Precedes call)
    (hname : call.token.lexeme = head.token.lexeme) : call.IsDefined := by
  have htoken := (mem_occurrences_iff.mp hhead).2
  rw [hindex] at hnames htoken
  have hdefines : Defines head.line.tokens call.token.lexeme :=
    hname ▸ hnames.defines htoken
  rcases hprecedes with hline | ⟨_, hline, _⟩
  · exact ⟨head.line, List.mem_append_left _ hline, hdefines⟩
  · exact ⟨head.line, by simp [hline], hdefines⟩

/-- Tokens of a script at one place are the same token. -/
lemma Occurrence.eq_of_place (hlines : LinesOrdered lines) {a b : Occurrence}
    (ha : a ∈ occurrences lines) (hb : b ∈ occurrences lines) (h : a.place = b.place) : a = b := by
  have hdistinct : ((occurrences lines).map place).Nodup := by
    rw [List.Nodup, List.pairwise_map]
    refine (pairwise_occurrences lines).imp_of_mem fun ha hb hab => ?_
    exact (place_before hlines ha hb hab).ne
  exact List.inj_on_of_nodup_map hdistinct ha hb h

end Behind

/-- **Definitions at the start of a line**: where the tokens `function`, a name and an opening
parenthesis begin a line, no call of this name on the rest of the line or on a later line is
told to be unknown. -/
theorem knowsBehind_leading (analyzer : Analyzer) (source : String) :
    analyzer.KnowsBehind
      (fun head => NamesFunction head.line.tokens head.index ∧ head.index = 1) source := by
  intro head hhead call hcall ⟨hnames, hindex⟩ hprecedes _ hname issue hissue hcode hplace
  obtain ⟨finding, hfinding, rfl⟩ := mem_issues_verdictOn.mp hissue
  obtain ⟨other, hother, hunknown, rfl⟩ :=
    (unknown_mem_allFindings_iff analyzer.settings.catalogue hcode).mp hfinding
  obtain rfl : other = call :=
    Occurrence.eq_of_place (linesOrdered_ofSource _ _) hother hcall hplace
  exact hunknown.undefined
    (Occurrence.isDefined_of_leading hhead hindex hnames hprecedes hname)

/-- A call behind a definition at the start of a line, and a call on that line. -/
theorem knowsBehind_leading_twice :
    ∃ head ∈ occurrences (TokenLine.ofSource Analyzer.standard.settings.markers
        "function f(a) f(a)\nPrint(f(1))".toList),
      (NamesFunction head.line.tokens head.index ∧ head.index = 1) ∧
        ∃ same ∈ occurrences (TokenLine.ofSource Analyzer.standard.settings.markers
            "function f(a) f(a)\nPrint(f(1))".toList),
          (head.Precedes same ∧ CallSite same.line.tokens same.index ∧
            same.token.lexeme = head.token.lexeme) ∧
          ∀ issue ∈ (Analyzer.standard.analyze "function f(a) f(a)\nPrint(f(1))").issues,
            issue.code = .unknownFunction → issue.place ≠ same.place := by
  obtain ⟨head, hhead, hleads, same, hsame, hprecedes, hcall, hname⟩ :
      ∃ head ∈ occurrences (TokenLine.ofSource Analyzer.standard.settings.markers
          "function f(a) f(a)\nPrint(f(1))".toList),
        (NamesFunction head.line.tokens head.index ∧ head.index = 1) ∧
          ∃ same ∈ occurrences (TokenLine.ofSource Analyzer.standard.settings.markers
              "function f(a) f(a)\nPrint(f(1))".toList),
            head.Precedes same ∧ CallSite same.line.tokens same.index ∧
              same.token.lexeme = head.token.lexeme := by
    decide +kernel
  exact ⟨head, hhead, hleads, same, hsame, ⟨hprecedes, hcall, hname⟩,
    knowsBehind_leading Analyzer.standard _ head hhead same hsame hleads hprecedes hcall hname⟩

/-- Behind a definition in the middle of a line the name is not known: only a line that
starts with `function` has a header. -/
theorem not_forall_knowsBehind :
    ¬ ∀ source : String, Analyzer.standard.KnowsBehind
      (fun head => NamesFunction head.line.tokens head.index) source := by
  intro h
  have hknows := h "var a = 1; function f(a)\nPrint(f(a))"
  rw [Analyzer.KnowsBehind] at hknows
  revert hknows
  decide +kernel

end ScriptLint
