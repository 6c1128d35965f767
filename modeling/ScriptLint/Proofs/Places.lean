import Mathlib
import ScriptLint.Proofs.Reading.Lines
import ScriptLint.Proofs.Subjects

/-!
The places of issues in the text of a script.

* `Problem.StandsAt`: what a problem is about stands in a physical line at a column:
  the name, the character, the keyword in any case of its letters, or the first
  bracket of the surplus sort outside literals and comments.
* `IsAbout.standsAt`: what the subject of a finding is about stands at its column.
* `Issue.PointsAt`, `Verdict.PointsAtText`: an issue points into a physical line, at
  what its problem is about; all issues of a verdict do.
* `analyze_pointsAtText`: the verdict on any script points at its text.
-/

namespace ScriptLint

/-! ### Problems in a line -/

/-- The text starts with the keyword, whatever the case of its letters. -/
def StartsWithKeyword (keyword : Keyword) (text : List Char) : Prop :=
  ∃ word, word <+: text ∧ Text.sameName word keyword.word.toList = true

/-- The text starts with the name, which is not empty. -/
def StartsWithName (name : String) (text : List Char) : Prop :=
  name.toList ≠ [] ∧ name.toList <+: text

/-- What the problem is about stands in the physical line from a column on, counted
from one. The line starts inside a block comment or outside; this matters for
brackets, which count outside literals and comments only. -/
def Problem.StandsAt (markers : Markers) (inComment : Bool) (physical : List Char)
    (column : Nat) : Problem → Prop
  | redeclared name => StartsWithName name (physical.drop (column - 1))
  | undeclared name => StartsWithName name (physical.drop (column - 1))
  | unused name => StartsWithName name (physical.drop (column - 1))
  | unknownFunction name => StartsWithName name (physical.drop (column - 1))
  | invalidCharacter c => physical[column - 1]? = some c
  | unclosed kind _ => StartsWithKeyword kind.opener (physical.drop (column - 1))
  | mismatched closer _ _ => StartsWithKeyword closer.closer (physical.drop (column - 1))
  | stray closer => StartsWithKeyword closer.closer (physical.drop (column - 1))
  | infiniteLoop => StartsWithKeyword .while_ (physical.drop (column - 1))
  | unbalanced kind lefts rights =>
    CodeAt markers (Zone.ofStart inComment) physical (column - 1)
        (surplus kind lefts rights).char ∧
      ∀ earlier < column - 1, ¬ CodeAt markers (Zone.ofStart inComment) physical earlier
        (surplus kind lefts rights).char

section Subject

variable {markers : Markers} {inComment : Bool} {physical : List Char} {line : SourceLine}
  {before later : List Token} {token : Token} {number : Nat} {problem : Problem}

/-- A keyword token spells its word in the physical line. -/
lemma startsWithKeyword_of_token (hlies : line.LiesIn markers inComment physical)
    (htoken : token ∈ Token.ofLine line) {keyword : Keyword}
    (hkind : token.kind = .keyword keyword) :
    StartsWithKeyword keyword (physical.drop (token.column - 1)) := by
  obtain ⟨_, _, _, _, _, _, hspells⟩ := hlies.exists_split htoken
  rw [hkind] at hspells
  exact ⟨token.lexeme, hlies.lexeme_isPrefix htoken (by simp [hkind]), hspells.sameName⟩

/-- An identifier token spells its name in the physical line. -/
lemma startsWithName_of_token (hlies : line.LiesIn markers inComment physical)
    (htoken : token ∈ Token.ofLine line) (hkind : token.kind = .identifier) :
    StartsWithName token.name (physical.drop (token.column - 1)) := by
  obtain ⟨_, _, _, _, _, _, hspells⟩ := hlies.exists_split htoken
  have hname : token.name.toList = token.lexeme := String.toList_ofList
  rw [StartsWithName, hname]
  exact ⟨hspells.ne_nil, hlies.lexeme_isPrefix htoken (by simp [hkind])⟩

/-- An invalid token starts with its character in the physical line. -/
lemma getElem?_of_invalid (hlies : line.LiesIn markers inComment physical)
    (htoken : token ∈ Token.ofLine line) {c : Char} (hkind : token.kind = .invalid c) :
    physical[token.column - 1]? = some c := by
  obtain ⟨_, _, _, _, _, _, hspells⟩ := hlies.exists_split htoken
  rw [hkind] at hspells
  obtain ⟨later, hlater⟩ := hlies.lexeme_isPrefix htoken (by simp [hkind])
  have hhead : (physical.drop (token.column - 1)).head? = some c := by
    rw [← hlater, List.head?_append, hspells.head?_invalid]
    rfl
  rwa [List.head?_drop] at hhead

/-- The surplus sort of bracket is the opening or the closing one. -/
lemma isBracket_surplus (kind : BracketKind) (lefts rights : Nat) :
    (Problem.surplus kind lefts rights).IsBracket := by
  rw [Problem.surplus]
  split_ifs
  · exact ⟨kind, .inl rfl⟩
  · exact ⟨kind, .inr rfl⟩

/-- The first bracket token of its sort is the first such bracket in the code of the
physical line. -/
lemma first_bracket (hlies : line.LiesIn markers inComment physical)
    (hsplit : Token.ofLine line = before ++ token :: later) {bracket : Delimiter}
    (hbracket : bracket.IsBracket) (hkind : token.kind = .delimiter bracket)
    (hfirst : ∀ earlier ∈ before, earlier.kind ≠ .delimiter bracket) :
    CodeAt markers (Zone.ofStart inComment) physical (token.column - 1) bracket.char ∧
      ∀ earlier < token.column - 1,
        ¬ CodeAt markers (Zone.ofStart inComment) physical earlier bracket.char := by
  have htoken : token ∈ Token.ofLine line := by
    rw [hsplit]
    exact List.mem_append_right _ List.mem_cons_self
  obtain ⟨hpos, _⟩ := hlies.column_bounds htoken
  constructor
  · rw [hlies.codeAt_bracket_iff hbracket]
    exact ⟨token, htoken, hkind, by omega⟩
  · intro earlier hlt hcode
    obtain ⟨other, hother, hotherKind, hcolumn⟩ :=
      (hlies.codeAt_bracket_iff hbracket).mp hcode
    have hsorted : (before ++ token :: later).Pairwise fun a b => a.column < b.column := by
      rw [← hsplit]
      exact (Token.reads_read (line.column 0) false line.text).pairwise_column
    obtain ⟨_, hlater, _⟩ := List.pairwise_append.mp hsorted
    rw [hsplit, List.mem_append, List.mem_cons] at hother
    rcases hother with hother | rfl | hother
    · exact hfirst other hother hotherKind
    · omega
    · have hright := (List.pairwise_cons.mp hlater).1 other hother
      omega

/-- What the subject of a problem is about stands at its column. -/
theorem IsAbout.standsAt (h : IsAbout number before token problem)
    (hlies : line.LiesIn markers inComment physical)
    (hsplit : Token.ofLine line = before ++ token :: later) :
    problem.StandsAt markers inComment physical token.column := by
  have htoken : token ∈ Token.ofLine line := by
    rw [hsplit]
    exact List.mem_append_right _ List.mem_cons_self
  cases h with
  | surplus surplus first =>
      exact first_bracket hlies hsplit (isBracket_surplus _ _ _) surplus first
  | invalid invalid => exact getElem?_of_invalid hlies htoken invalid
  | opener opener => exact startsWithKeyword_of_token hlies htoken opener
  | closer keyword => exact startsWithKeyword_of_token hlies htoken keyword
  | strayCloser keyword => exact startsWithKeyword_of_token hlies htoken keyword
  | redeclared identifier => exact startsWithName_of_token hlies htoken identifier
  | undeclared identifier => exact startsWithName_of_token hlies htoken identifier
  | unused identifier => exact startsWithName_of_token hlies htoken identifier
  | unknownFunction identifier => exact startsWithName_of_token hlies htoken identifier
  | loop keyword => exact startsWithKeyword_of_token hlies htoken keyword

end Subject

/-! ### Issues in a script -/

/-- The issue reports the problem, at a place in the physical line where what it is
about stands. -/
structure Issue.PointsAt (markers : Markers) (physicals : List (List Char))
    (physical : List Char) (problem : Problem) (issue : Issue) : Prop where
  reports : issue = Issue.ofFinding ⟨issue.place, problem⟩
  line_pos : 1 ≤ issue.place.line
  line_le : issue.place.line ≤ physicals.length
  line_at : physicals[issue.place.line - 1]? = some physical
  column_pos : 1 ≤ issue.place.column
  column_le : issue.place.column ≤ physical.length
  stands : problem.StandsAt markers
    (commentOpen markers false (physicals.take (issue.place.line - 1))) physical
    issue.place.column

/-- Each issue of the verdict points into the physical lines, at what it is about. -/
def Verdict.PointsAtText (verdict : Verdict) (markers : Markers)
    (physicals : List (List Char)) : Prop :=
  ∀ issue ∈ verdict.issues, ∃ physical problem,
    issue.PointsAt markers physicals physical problem

/-- The issue of a finding points at the text. -/
lemma pointsAt_of_mem_allFindings {catalogue : Catalogue} {markers : Markers}
    {source : List Char} {finding : Finding}
    (h : finding ∈ allFindings catalogue (TokenLine.ofSource markers source)) :
    ∃ physical, (Issue.ofFinding finding).PointsAt markers
      (Text.physicalLines (Text.unifyEndings source)) physical finding.problem := by
  obtain ⟨line, hline, before, token, later, hsplit, hplace, habout⟩ := exists_subject h
  obtain ⟨index, physical, sourceLine, hphysical, hnumber, htokens, hlies⟩ :=
    exists_sourceLine hline
  rw [htokens] at hsplit
  have htoken : token ∈ Token.ofLine sourceLine := by
    rw [hsplit]
    exact List.mem_append_right _ List.mem_cons_self
  obtain ⟨hpos, hle⟩ := hlies.column_bounds htoken
  have hlt := (List.getElem?_eq_some_iff.mp hphysical).1
  have hline : finding.place.line = index + 1 := by rw [hplace, hnumber]
  have hcolumn : finding.place.column = token.column := by rw [hplace]
  have hissue : (Issue.ofFinding finding).place = finding.place := rfl
  refine ⟨physical, rfl, ?_, ?_, ?_, ?_, ?_, ?_⟩
  · rw [hissue, hline]
    omega
  · rw [hissue, hline]
    omega
  · rw [hissue, hline, Nat.add_sub_cancel]
    exact hphysical
  · rw [hissue, hcolumn]
    exact hpos
  · rw [hissue, hcolumn]
    exact hle
  · rw [hissue, hline, hcolumn, Nat.add_sub_cancel]
    exact habout.standsAt hlies hsplit

/-- The issues of a verdict are those of the findings. -/
lemma mem_issues_verdictOn {settings : Settings} {lines : List TokenLine} {issue : Issue} :
    issue ∈ (verdictOn settings lines).issues ↔
      ∃ finding ∈ allFindings settings.catalogue lines, issue = Issue.ofFinding finding := by
  simp only [verdictOn, Verdict.ofIssues, Verdict.issues, List.mem_append, List.mem_filter,
    List.mem_map, Bool.not_eq_true', ← and_or_left]
  constructor
  · rintro ⟨⟨finding, hfinding, rfl⟩, _⟩
    exact ⟨finding, hfinding, rfl⟩
  · rintro ⟨finding, hfinding, rfl⟩
    exact ⟨⟨finding, hfinding, rfl⟩, Bool.eq_false_or_eq_true _⟩

/-- **Places**: every issue of the verdict on a script, error or warning, points at
the text that it is about, in a physical line of the script. -/
theorem analyze_pointsAtText (analyzer : Analyzer) (source : String) :
    (analyzer.analyze source).PointsAtText analyzer.settings.markers
      (Text.physicalLines (Text.unifyEndings source.toList)) := by
  intro issue hissue
  obtain ⟨finding, hfinding, rfl⟩ := mem_issues_verdictOn.mp hissue
  obtain ⟨physical, hpoints⟩ := pointsAt_of_mem_allFindings hfinding
  exact ⟨physical, finding.problem, hpoints⟩

end ScriptLint
