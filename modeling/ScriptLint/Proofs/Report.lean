import Mathlib
import ScriptLint.Proofs.Report.Record
import ScriptLint.Proofs.Layout.CodeOnly
import ScriptLint.Proofs.Messages
import ScriptLint.Proofs.Places
import ScriptLint.Proofs.Subjects

/-!
What the text of a report tells.

* `Text.IsLine`: a text without a line ending; numbers, keywords and codes are such texts.
* `Problem.isLine_message`, `isLine_suggestions`: a message goes on one line if the name or the
  character that it is about does, and each suggestion does.
* `Verdict.said`, `unbroken_said`: what an analysis says goes on one line each.
* `Verdict.physicalLines_text`: the lines of a report.
* `Issue.display_injective`, `Verdict.eq_of_headline`: an issue on one line is read back, and so
  are the validity and the numbers of issues in the first line.
* `Verdict.ReadsBack`, `text_faithful`: **faithfulness**, a report of texts on one line each has
  a line for each of them, and tells all of the verdict but its metrics.
-/

namespace ScriptLint

/-! ### Texts without a line ending -/

namespace Text

/-- The text holds no line ending. -/
def IsLine (text : List Char) : Prop := '\r' ∉ text ∧ '\n' ∉ text

instance (text : List Char) : Decidable (IsLine text) :=
  inferInstanceAs (Decidable ('\r' ∉ text ∧ '\n' ∉ text))

section Line

variable {text first second : List Char}

lemma isLine_append : IsLine (first ++ second) ↔ IsLine first ∧ IsLine second := by
  simp only [IsLine, List.mem_append, not_or]
  exact and_and_and_comm

lemma isLine_nil : IsLine [] := ⟨List.not_mem_nil, List.not_mem_nil⟩

/-- Digits end no line. -/
lemma isLine_of_isDigit (h : ∀ d ∈ text, d.isDigit = true) : IsLine text :=
  ⟨fun hmem => absurd (h _ hmem) (by decide), fun hmem => absurd (h _ hmem) (by decide)⟩

lemma isLine_toDigits (n : Nat) : IsLine (Nat.toDigits 10 n) :=
  isLine_of_isDigit fun _ => Decimal.isDigit_of_mem_toDigits

lemma isLine_toString (n : Nat) : IsLine (toString n).toList := by
  simpa using isLine_toDigits n

end Line

end Text

open Text

/-- A number with a fixed number of places is on one line. -/
lemma Decimal.isLine_fixed (places : Nat) (x : Float) : IsLine (fixed places x).toList := by
  have hsign : ∀ negative, IsLine (signText negative) := by decide
  have hpointed : ∀ {parts : List Char × List Char},
      (∀ d ∈ parts.1 ++ parts.2, d.isDigit = true) → IsLine (pointed parts) := by
    intro parts hdigits
    obtain ⟨hbefore, hbehind⟩ := isLine_append.mp (isLine_of_isDigit hdigits)
    rw [pointed]
    split_ifs
    · exact hbefore
    · rw [List.append_cons, isLine_append, isLine_append]
      exact ⟨⟨hbefore, by decide⟩, hbehind⟩
  rw [fixed]
  split
  · decide
  · rw [String.toList_ofList, isLine_append]
    exact ⟨hsign _, by decide⟩
  · rw [String.toList_ofList, isLine_append]
    exact ⟨hsign _, hpointed (isWritten_cut _ places).isDigit⟩

/-! ### What an analysis says -/

/-- The name or the character that a problem is about. -/
def Problem.subject : Problem → List Char
  | invalidCharacter char => [char]
  | redeclared name | undeclared name | unused name | unknownFunction name => name.toList
  | _ => []

lemma not_mem_toList_append {c : Char} {a b : String} :
    c ∉ (a ++ b).toList ↔ c ∉ a.toList ∧ c ∉ b.toList := by
  rw [String.toList_append, List.mem_append, not_or]

/-- Two texts one behind the other are on one line if both are. -/
lemma isLine_toList_append {a b : String} :
    IsLine (a ++ b).toList ↔ IsLine a.toList ∧ IsLine b.toList := by
  rw [String.toList_append, isLine_append]

lemma BlockKind.isLine_display (kind : BlockKind) : IsLine kind.display.toList := by
  cases kind <;> decide

lemma BlockKind.isLine_closer (kind : BlockKind) : IsLine kind.closer.word.toList := by
  cases kind <;> decide

lemma Delimiter.isLine_char (delimiter : Delimiter) : IsLine delimiter.char.toString.toList := by
  cases delimiter <;> decide

namespace Problem

lemma isLine_quoted {text : String} : IsLine (quoted text).toList ↔ IsLine text.toList := by
  have hquote : IsLine "'".toList := by decide
  rw [quoted, isLine_toList_append, isLine_toList_append, and_iff_right hquote,
    and_iff_left hquote]

/-- A message is on one line if what it is about is: so are all the parts of its sentence. -/
lemma isLine_message {problem : Problem} (h : IsLine problem.subject) :
    IsLine problem.message.toList := by
  -- the equations of the definition are slow to derive, since they compare long texts
  delta message
  cases problem with
  | unbalanced =>
      simp only [isLine_toList_append, isLine_quoted, and_assoc]
      exact ⟨by decide, Delimiter.isLine_char _, by decide, isLine_toString _, by decide,
        isLine_toString _, by decide⟩
  | invalidCharacter char =>
      rw [subject, ← String.toList_singleton] at h
      simp only [isLine_toList_append, isLine_quoted]
      exact ⟨by decide, h⟩
  | unclosed =>
      simp only [isLine_toList_append, isLine_quoted, and_assoc]
      exact ⟨BlockKind.isLine_display _, by decide, isLine_toString _, by decide,
        BlockKind.isLine_closer _⟩
  | mismatched =>
      simp only [isLine_toList_append, isLine_quoted, and_assoc]
      exact ⟨BlockKind.isLine_closer _, by decide, BlockKind.isLine_display _, by decide,
        isLine_toString _⟩
  | stray =>
      simp only [isLine_toList_append, isLine_quoted, and_assoc]
      exact ⟨BlockKind.isLine_closer _, by decide, BlockKind.isLine_display _⟩
  | redeclared | undeclared | unused =>
      simp only [isLine_toList_append, isLine_quoted, and_assoc]
      exact ⟨by decide, h, by decide⟩
  | unknownFunction =>
      simp only [isLine_toList_append, isLine_quoted]
      exact ⟨by decide, h⟩
  | infiniteLoop => decide

end Problem

/-- A token of a script is on one line. -/
lemma isLine_lexeme {markers : Markers} {source : List Char} {line : TokenLine} {token : Token}
    (hline : line ∈ TokenLine.ofSource markers source) (htoken : token ∈ line.tokens) :
    IsLine token.lexeme := by
  obtain ⟨index, physical, sourceLine, hphysical, _, htokens, hlies⟩ := exists_sourceLine hline
  rw [htokens] at htoken
  obtain ⟨front, later, _, hsplit, _⟩ := (Token.reads_read _ _ _).exists_split htoken
  obtain ⟨hreturn, hfeed⟩ :=
    Text.unbroken_physicalLines source physical (List.mem_of_getElem? hphysical)
  have hmem : ∀ {c : Char}, c ≠ ' ' → c ∈ token.lexeme → c ∈ physical := by
    intro c hc hlexeme
    refine hlies.mem_physical hc ?_
    rw [hsplit]
    exact List.mem_append_left _ (List.mem_append_right _ hlexeme)
  exact ⟨fun h => hreturn (hmem (by decide) h), fun h => hfeed (hmem (by decide) h)⟩

/-- What is told on a script is about texts on one line. -/
lemma isLine_subject {markers : Markers} {source : List Char} {catalogue : Catalogue}
    {finding : Finding} (h : finding ∈ allFindings catalogue (TokenLine.ofSource markers source)) :
    IsLine finding.problem.subject := by
  obtain ⟨line, hline, before, token, later, hsplit, _, habout⟩ := exists_subject h
  obtain ⟨_, problem⟩ := finding
  have htoken : token ∈ line.tokens := by simp [hsplit]
  have hlexeme := isLine_lexeme hline htoken
  have hname : IsLine token.name.toList := by rwa [Token.name, String.toList_ofList]
  cases habout with
  | invalid hinvalid =>
      -- the character is the first of the token
      obtain ⟨_, _, sourceLine, _, _, htokens, _⟩ := exists_sourceLine hline
      rw [htokens] at htoken
      obtain ⟨_, _, _, _, _, hspells⟩ := (Token.reads_read _ _ _).exists_split htoken
      obtain ⟨rest, hrest⟩ := List.head?_eq_some_iff.mp (hinvalid ▸ hspells).head?_invalid
      rw [hrest, ← List.singleton_append, isLine_append] at hlexeme
      exact hlexeme.1
  | redeclared _ | undeclared _ | unused _ | unknownFunction _ => exact hname
  | _ => exact isLine_nil

/-- Suggestions are on one line. -/
lemma isLine_suggestions {limits : Thresholds} {metrics : Metrics Float} {suggestion : String}
    (h : suggestion ∈ limits.suggestions metrics) : IsLine suggestion.toList := by
  have hover : ∀ {what advice : String} (measured limit : Float), IsLine what.toList →
      IsLine advice.toList → IsLine (overLimit what measured limit advice).toList := by
    intro what advice measured limit hwhat hadvice
    simp only [overLimit, isLine_toList_append, and_assoc]
    exact ⟨hwhat, by decide, Decimal.isLine_fixed 1 measured, by decide,
      Decimal.isLine_fixed 1 limit, by decide, hadvice⟩
  rw [Thresholds.suggestions, List.mem_append] at h
  rcases h with h | h <;> split_ifs at h
  · obtain rfl := List.mem_singleton.mp h
    exact hover _ _ (by decide) (by decide)
  · cases h
  · obtain rfl := List.mem_singleton.mp h
    exact hover _ _ (by decide) (by decide)
  · cases h

/-- The texts of a verdict: the messages of its issues, and its suggestions. -/
def Verdict.said (verdict : Verdict) : List (List Char) :=
  (verdict.issues.map Issue.message ++ verdict.suggestions).map String.toList

/-- **What an analysis says** goes on one line each. -/
theorem unbroken_said (analyzer : Analyzer) (source : String) :
    Unbroken (analyzer.analyze source).said := by
  intro text htext
  obtain ⟨line, hline, rfl⟩ := List.mem_map.mp htext
  rcases List.mem_append.mp hline with hmessage | hsuggestion
  · obtain ⟨issue, hissue, rfl⟩ := List.mem_map.mp hmessage
    obtain ⟨finding, hfinding, rfl⟩ := mem_issues_verdictOn.mp hissue
    exact Problem.isLine_message (isLine_subject hfinding)
  · exact isLine_suggestions hsuggestion

/-! ### The lines of a report -/

/-- Lines that are ended one by one are read back, with an empty line behind the last. -/
lemma Text.physicalLines_join {lines : List String} (h : ∀ line ∈ lines, '\n' ∉ line.toList) :
    physicalLines (String.join (lines.map (· ++ "\n"))).toList =
      lines.map String.toList ++ [[]] := by
  induction lines with
  | nil => rfl
  | cons line rest ih =>
      obtain ⟨hline, hrest⟩ := List.forall_mem_cons.mp h
      rw [List.map_cons, String.join_cons, String.toList_append, String.toList_append,
        List.append_assoc]
      exact (physicalLines_append_lineFeed hline).trans (congrArg (line.toList :: ·) (ih hrest))

/-- A number with its noun is on one line. -/
lemma isLine_counted {noun : String} (h : IsLine noun.toList) (n : Nat) :
    IsLine (counted n noun).toList := by
  have hplural : IsLine (if n = 1 then "" else "s").toList := by split_ifs <;> decide
  simp only [counted, isLine_toList_append, and_assoc]
  exact ⟨isLine_toString n, by decide, h, hplural⟩

/-- The characters of an issue on one line. -/
lemma Issue.toList_display (issue : Issue) : issue.display.toList =
    (toString issue.place.line).toList ++ ':' :: ((toString issue.place.column).toList ++
      ':' :: ' ' :: (issue.severity.display.toList ++ '[' :: (issue.code.display.toList ++
        ']' :: ':' :: ' ' :: issue.message.toList))) := by
  simp [display, Position.display]

lemma IssueCode.isLine_display (code : IssueCode) : IsLine code.display.toList := by
  cases code with
  | unmatchedEnd kind => cases kind <;> decide
  | _ => decide

/-- An issue is on one line if its message is. -/
lemma Issue.lineFeed_not_mem_display {issue : Issue} (h : '\n' ∉ issue.message.toList) :
    '\n' ∉ issue.display.toList := by
  have hseverity : '\n' ∉ issue.severity.display.toList := by
    cases issue.severity <;> decide
  simp [toList_display, h, hseverity, (isLine_toDigits _).2, issue.code.isLine_display.2]

namespace Verdict

variable {verdict : Verdict} {name : String}

/-- No line of a report holds a line feed. -/
lemma lineFeed_not_mem_lines (hname : '\n' ∉ name.toList)
    (hsaid : ∀ text ∈ verdict.said, '\n' ∉ text) :
    ∀ line ∈ verdict.lines name, '\n' ∉ line.toList := by
  rw [said, List.forall_mem_map, List.forall_mem_append, List.forall_mem_map] at hsaid
  obtain ⟨hmessages, hsuggestions⟩ := hsaid
  rw [lines, List.forall_mem_append, List.forall_mem_append, List.forall_mem_cons,
    List.forall_mem_map, List.forall_mem_map, List.forall_mem_singleton]
  refine ⟨⟨⟨?_, fun issue hissue => ?_⟩, fun suggestion hsuggestion => ?_⟩, ?_⟩
  · have hvalid : '\n' ∉ (if verdict.isValid then "valid" else "invalid").toList := by
      split_ifs <;> decide
    have hcounted : ∀ (n : Nat) {noun : String}, IsLine noun.toList →
        '\n' ∉ (counted n noun).toList := fun n _ hnoun => (isLine_counted hnoun n).2
    simp only [headline, not_mem_toList_append, and_assoc]
    exact ⟨hname, by decide, hvalid, by decide, hcounted _ (by decide), by decide,
      hcounted _ (by decide), by decide⟩
  · simp only [issueLine, not_mem_toList_append, and_assoc]
    exact ⟨by decide, hname, by decide,
      Issue.lineFeed_not_mem_display (hmessages issue hissue)⟩
  · exact not_mem_toList_append.mpr ⟨by decide, hsuggestions suggestion hsuggestion⟩
  · have hfixed := fun x => (Decimal.isLine_fixed 1 x).2
    delta costLine
    simp only [not_mem_toList_append, and_assoc]
    exact ⟨by decide, hfixed _, by decide, hfixed _, by decide, hfixed _⟩

/-- **The lines of a report**: the head, a line for each error, warning and suggestion, and the
metrics. Each of them is ended. -/
theorem physicalLines_text (hname : '\n' ∉ name.toList)
    (hsaid : ∀ text ∈ verdict.said, '\n' ∉ text) :
    physicalLines (verdict.text name).toList = (verdict.lines name).map String.toList ++ [[]] :=
  physicalLines_join (lineFeed_not_mem_lines hname hsaid)

end Verdict

/-! ### Reading a report back -/

/-- A number with its noun is read back. -/
lemma counted_append_inj {m n : Nat} {noun x y : String}
    (h : counted m noun ++ x = counted n noun ++ y) : m = n ∧ x = y := by
  have hcounted : ∀ (k : Nat) (z : String), counted k noun ++ z =
      toString k ++ (" " ++ (noun ++ ((if k = 1 then "" else "s") ++ z))) := by
    intro k z
    rw [counted, String.append_assoc, String.append_assoc, String.append_assoc]
  rw [hcounted, hcounted] at h
  obtain ⟨rfl, hbehind⟩ := toString_append_inj h
  rw [String.append_right_inj, String.append_right_inj] at hbehind
  exact ⟨rfl, hbehind⟩

/-- An issue on one line is read back. -/
theorem Issue.display_injective : Function.Injective display := by
  intro a b h
  have hlists := congrArg String.toList h
  rw [toList_display, toList_display] at hlists
  have hword : ∀ severity : Severity, '[' ∉ severity.display.toList := by
    intro severity
    cases severity <;> decide
  have hname : ∀ code : IssueCode, ']' ∉ code.display.toList := by
    intro code
    cases code with
    | unmatchedEnd kind => cases kind <;> decide
    | _ => decide
  obtain ⟨hline, hlists⟩ := toString_append_cons_inj (by decide) hlists
  obtain ⟨hcolumn, hlists⟩ := toString_append_cons_inj (by decide) hlists
  obtain ⟨hseverity, hlists⟩ := append_cons_inj (hword _) (hword _) (List.cons.inj hlists).2
  obtain ⟨hcode, hlists⟩ := append_cons_inj (hname _) (hname _) hlists
  have hplace : a.place = b.place := congrArg₂ Position.mk hline hcolumn
  have hmessage := String.toList_inj.mp (List.cons.inj (List.cons.inj hlists).2).2
  have hseverities := congrArg Severity.ofName? (String.toList_inj.mp hseverity)
  rw [Severity.ofName?_display, Severity.ofName?_display, Option.some.injEq] at hseverities
  have hcodes := congrArg IssueCode.ofName? (String.toList_inj.mp hcode)
  rw [IssueCode.ofName?_display, IssueCode.ofName?_display, Option.some.injEq] at hcodes
  cases a
  cases b
  rw [Issue.mk.injEq]
  exact ⟨hplace, hmessage, hseverities, hcodes⟩

namespace Verdict

variable {a b : Verdict} {name : String}

/-- The first line of a report tells the validity and the numbers of issues. -/
lemma eq_of_headline (h : a.headline name = b.headline name) :
    a.isValid = b.isValid ∧ a.errors.length = b.errors.length ∧
      a.warnings.length = b.warnings.length := by
  have hheadline : ∀ verdict : Verdict, verdict.headline name =
      name ++ (": " ++ ((if verdict.isValid then "valid" else "invalid") ++ (" (" ++
        (counted verdict.errors.length "error" ++ (", " ++
          (counted verdict.warnings.length "warning" ++ ")")))))) := by
    intro verdict
    rw [headline]
    repeat rw [String.append_assoc]
  have hword : ∀ {v w : Bool} {x y : String},
      (if v then "valid" else "invalid") ++ x = (if w then "valid" else "invalid") ++ y →
        v = w ∧ x = y := by
    intro v w x y h
    have hfirst := congrArg (fun text : String => text.toList.head?) h
    cases v <;> cases w
    · exact ⟨rfl, (String.append_right_inj _).mp h⟩
    · simp at hfirst
    · simp at hfirst
    · exact ⟨rfl, (String.append_right_inj _).mp h⟩
  rw [hheadline, hheadline, String.append_right_inj, String.append_right_inj] at h
  obtain ⟨hvalid, h⟩ := hword h
  obtain ⟨herrors, h⟩ := counted_append_inj ((String.append_right_inj _).mp h)
  obtain ⟨hwarnings, _⟩ := counted_append_inj ((String.append_right_inj _).mp h)
  exact ⟨hvalid, herrors, hwarnings⟩

/-- The lines of a report tell all of the verdict but its metrics. -/
lemma eq_of_lines (h : a.lines name = b.lines name) :
    a.isValid = b.isValid ∧ a.errors = b.errors ∧ a.warnings = b.warnings ∧
      a.suggestions = b.suggestions := by
  have hissueLine : Function.Injective (issueLine name) := fun _ _ h =>
    Issue.display_injective ((String.append_right_inj _).mp h)
  have hsuggestion : Function.Injective ("  suggestion: " ++ ·) := fun _ _ h =>
    (String.append_right_inj _).mp h
  rw [lines, lines, List.cons_append, List.cons_append, List.cons_append, List.cons_append,
    List.append_assoc, List.append_assoc, List.cons.injEq] at h
  obtain ⟨hheadline, hlines⟩ := h
  obtain ⟨hvalid, herrors, hwarnings⟩ := eq_of_headline hheadline
  obtain ⟨hissues, hbehind⟩ := List.append_inj hlines
    (by simp [issues, herrors, hwarnings])
  obtain ⟨hsuggestions, _⟩ := List.append_inj' hbehind rfl
  obtain ⟨herror, hwarning⟩ :=
    List.append_inj (List.map_injective_iff.mpr hissueLine hissues) herrors
  exact ⟨hvalid, herror, hwarning, List.map_injective_iff.mpr hsuggestion hsuggestions⟩

/-- The report on a script of this name has a line for each text of the verdict, and tells all
of the verdict but its metrics. -/
structure ReadsBack (verdict : Verdict) (name : String) : Prop where
  /-- The lines, each of them ended: the last line feed is followed by nothing. -/
  lines : physicalLines (verdict.text name).toList =
    (verdict.headline name :: (verdict.errors.map (issueLine name) ++
      (verdict.warnings.map (issueLine name) ++
        (verdict.suggestions.map ("  suggestion: " ++ ·) ++
          [costLine verdict.performance])))).map String.toList ++ [[]]
  count : (verdict.text name).toList.count '\n' =
    2 + verdict.errors.length + verdict.warnings.length + verdict.suggestions.length
  tells : ∀ other : Verdict, (∀ text ∈ other.said, '\n' ∉ text) →
    other.text name = verdict.text name →
      other.isValid = verdict.isValid ∧ other.errors = verdict.errors ∧
        other.warnings = verdict.warnings ∧ other.suggestions = verdict.suggestions

end Verdict

/-- **Faithfulness** of the report for a reader: what an analysis says goes on one line each,
and a report of texts on one line each reads back. -/
theorem text_faithful :
    (∀ (analyzer : Analyzer) (source : String), Unbroken (analyzer.analyze source).said) ∧
    ∀ name : String, '\n' ∉ name.toList →
      ∀ verdict : Verdict, (∀ text ∈ verdict.said, '\n' ∉ text) → verdict.ReadsBack name := by
  refine ⟨unbroken_said, fun name hname verdict hsaid => ?_⟩
  have hlines := Verdict.physicalLines_text hname hsaid
  refine ⟨?_, ?_, fun other hother htext => ?_⟩
  · rw [hlines, Verdict.lines, Verdict.issues]
    simp
  · have hlength := length_physicalLines (verdict.text name).toList
    rw [hlines] at hlength
    simp [Verdict.lines, Verdict.issues] at hlength
    omega
  · have hsame := Verdict.physicalLines_text hname hother
    rw [htext, hlines, List.append_left_inj] at hsame
    have hinjective : Function.Injective String.toList := fun _ _ => String.toList_injective
    exact Verdict.eq_of_lines (List.map_injective_iff.mpr hinjective hsame.symm)

/-- A name that looks like the first line of a report, and a message that looks like an
issue. -/
theorem text_faithful_lookalikes :
    '\n' ∉ "a: valid (0 errors, 0 warnings)".toList ∧
      (∀ text ∈ (Verdict.mk false [⟨⟨1, 2⟩, "1:3: error[X]: y", .error, .invalidCharacter⟩] []
        ["  cost: 0"] ⟨0, 0, 0⟩).said, '\n' ∉ text) ∧
      (Verdict.mk false [⟨⟨1, 2⟩, "1:3: error[X]: y", .error, .invalidCharacter⟩] []
        ["  cost: 0"] ⟨0, 0, 0⟩).ReadsBack "a: valid (0 errors, 0 warnings)" :=
  ⟨by decide, by decide, text_faithful.2 _ (by decide) _ (by decide)⟩

end ScriptLint
