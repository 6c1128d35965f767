import Mathlib
import ScriptLint.Proofs.Cost.Totals
import ScriptLint.Proofs.Order
import ScriptLint.Proofs.Text.Endings

/-!
What more lines at the end of a script change in its verdict.

* `scanFrom_append`, `exists_ofSource_append`: the lines of a longer text are those of the
  shorter one and others behind them, also if a comment is open in between.
* `exists_lineIssues_append`: what is told about lines is told again, before all that is
  told about the other lines.
* `exists_openFrames_append`: the open blocks are the outermost ones of before
  and others inside of them.
* `exists_introduced_append`, `uses_append`: the variables are those of before and others
  behind them, and no use is forgotten.
* `Verdict.Extends`, `analyze_append`: the verdict on the longer text.
-/

namespace ScriptLint

/-! ### The lines of a longer text -/

section Lines

variable {markers : Markers}

/-- The source lines of further physical lines follow, and start inside a comment if one is
open before them. -/
lemma SourceLine.scanFrom_append (number : Nat) (inComment : Bool)
    (early late : List (List Char)) :
    scanFrom markers number inComment (early ++ late) =
      scanFrom markers number inComment early ++
        scanFrom markers (number + early.length) (commentOpen markers inComment early) late := by
  have hcons : ∀ number inComment physical later,
      scanFrom markers number inComment (physical :: later) =
        (ofPhysical markers number inComment physical).1.toList ++
          scanFrom markers (number + 1) (ofPhysical markers number inComment physical).2 later :=
    fun _ _ _ _ => rfl
  induction early generalizing number inComment with
  | nil => rfl
  | cons physical rest ih =>
      have hopen : commentOpen markers inComment (physical :: rest) =
          commentOpen markers (ofPhysical markers number inComment physical).2 rest := by
        rw [commentOpen, ofPhysical_snd number]
      rw [List.cons_append, hcons, hcons, ih, List.append_assoc, List.length_cons, hopen,
        Nat.add_assoc, Nat.add_comm 1]

/-- The lines of a text with a line feed and another text behind it: the lines of the text,
and lines with greater numbers. -/
theorem exists_ofSource_append (markers : Markers) {text : List Char} (h : text.getLast? ≠ some '\r')
    (rest : List Char) :
    ∃ late, TokenLine.ofSource markers (text ++ '\n' :: rest) =
        TokenLine.ofSource markers text ++ late ∧
      (∀ line ∈ TokenLine.ofSource markers text,
        line.number ≤ (Text.physicalLines (Text.unifyEndings text)).length) ∧
      ∀ line ∈ late, (Text.physicalLines (Text.unifyEndings text)).length < line.number := by
  obtain ⟨late, hlate⟩ : ∃ late, SourceLine.scanFrom markers
      (1 + (Text.physicalLines (Text.unifyEndings text)).length)
      (commentOpen markers false (Text.physicalLines (Text.unifyEndings text)))
      (Text.physicalLines (Text.unifyEndings rest)) = late := ⟨_, rfl⟩
  refine ⟨late.map fun line => ⟨line.number, Token.ofLine line⟩, ?_, ?_, ?_⟩
  · rw [TokenLine.ofSource, SourceLine.scan, Text.unifyEndings_append_lineFeed h,
      Text.physicalLines_append, SourceLine.scanFrom_append, hlate, List.map_append]
    rfl
  · intro line hline
    obtain ⟨index, _, _, hphysical, hnumber, _⟩ := exists_sourceLine hline
    have hlt := (List.getElem?_eq_some_iff.mp hphysical).1
    omega
  · intro line hline
    obtain ⟨sourceLine, hmem, rfl⟩ := List.mem_map.mp hline
    rw [← hlate] at hmem
    obtain ⟨index, _, _, hnumber, _⟩ := SourceLine.exists_liesIn_of_scanFrom hmem
    change _ < sourceLine.number
    omega

end Lines

/-! ### Findings on lines -/

section Findings

variable {catalogue : Catalogue}

/-- The findings on further lines come after those on the lines before. -/
lemma overLines_append (checkers : List Checker) (early late : List TokenLine) :
    (overLines catalogue checkers (early ++ late)).2.findings =
      (overLines catalogue checkers early).2.findings ++
        (overLines catalogue (overLines catalogue checkers early).1 late).2.findings := by
  induction early generalizing checkers with
  | nil => rfl
  | cons line rest ih =>
      simp only [List.cons_append, overLines, Notes.append, ih, List.append_assoc]

/-- What is told about lines is told again, before all that is told about further lines. -/
lemma exists_lineIssues_append (catalogue : Catalogue) (early late : List TokenLine) :
    ∃ more, lineIssues catalogue (early ++ late) = lineIssues catalogue early ++ more := by
  rw [lineIssues, overLines_append, List.map_append]
  exact ⟨_, rfl⟩

end Findings

/-! ### Open blocks -/

section Blocks

/-- The open blocks after a line: those before it, or one more that is opened on the line,
or all but the innermost one. -/
lemma blockLine_cases (stack : List Frame) (number : Nat) (tokens : List Token) :
    (blockLine stack number tokens).1 = stack ∨
      (∃ frame, frame.openedAt.line = number ∧
        (blockLine stack number tokens).1 = frame :: stack) ∨
      (blockLine stack number tokens).1 = stack.tail := by
  rw [blockLine]
  cases BlockMark.ofTokens? tokens with
  | none => exact .inl rfl
  | some mark =>
      obtain ⟨mark, column⟩ := mark
      cases mark with
      | opens kind => exact .inr (.inl ⟨_, rfl, rfl⟩)
      | closes kind =>
          refine .inr (.inr ?_)
          cases stack with
          | nil => rfl
          | cons frame outer =>
              simp only [BlockStep.take]
              split_ifs <;> rfl

/-- The open blocks after one more line. -/
lemma openFrames_concat (lines : List TokenLine) (line : TokenLine) :
    openFrames (lines ++ [line]) =
      (blockLine (openFrames lines) line.number line.tokens).1 := by
  have hafter := after_blocks .base (lines ++ [line])
  rw [List.map_append, Checker.after_append, after_blocks] at hafter
  exact (Checker.blocks.inj hafter).symm

/-- The open blocks after further lines: some that these lines have opened, and inside of
which they stand the outermost ones of before. -/
lemma exists_openFrames_append (early late : List TokenLine) :
    ∃ fresh closed, openFrames (early ++ late) = fresh ++ (openFrames early).drop closed ∧
      ∀ frame ∈ fresh, ∃ line ∈ late, frame.openedAt.line = line.number := by
  induction late using List.reverseRecOn with
  | nil => exact ⟨[], 0, by rw [List.append_nil]; rfl, fun _ h => absurd h List.not_mem_nil⟩
  | append_singleton late line ih =>
      obtain ⟨fresh, closed, hframes, hfresh⟩ := ih
      have hfresh' : ∀ frame ∈ fresh, ∃ other ∈ late ++ [line],
          frame.openedAt.line = other.number := by
        intro frame hframe
        obtain ⟨other, hother, hnumber⟩ := hfresh frame hframe
        exact ⟨other, List.mem_append_left _ hother, hnumber⟩
      rw [← List.append_assoc, openFrames_concat, hframes]
      rcases blockLine_cases (fresh ++ (openFrames early).drop closed) line.number
        line.tokens with hsame | ⟨frame, hnumber, hpush⟩ | hpop
      · exact ⟨fresh, closed, hsame, hfresh'⟩
      · refine ⟨frame :: fresh, closed, hpush, fun other hother => ?_⟩
        rcases List.mem_cons.mp hother with rfl | hother
        · exact ⟨line, List.mem_append_right _ (List.mem_singleton_self _), hnumber⟩
        · exact hfresh' other hother
      · cases fresh with
        | nil => exact ⟨[], closed + 1, by rw [hpop]; exact List.tail_drop, hfresh'⟩
        | cons frame rest =>
            exact ⟨rest, closed, hpop, fun other hother =>
              hfresh' other (List.mem_cons_of_mem _ hother)⟩

/-- The open blocks of a script are opened on its lines. -/
lemma exists_line_of_openFrames {lines : List TokenLine} {frame : Frame}
    (h : frame ∈ openFrames lines) : ∃ line ∈ lines, frame.openedAt.line = line.number := by
  obtain ⟨fresh, closed, hframes, hfresh⟩ := exists_openFrames_append [] lines
  have hnone : openFrames [] = [] := rfl
  rw [List.nil_append, hnone, List.drop_nil, List.append_nil] at hframes
  exact hfresh frame (hframes ▸ h)

end Blocks

/-! ### Variables -/

section Variables

variable {catalogue : Catalogue}

lemma Occurrence.onLines_append (before early late : List TokenLine) :
    onLines before (early ++ late) = onLines before early ++ onLines (before ++ early) late := by
  induction early generalizing before with
  | nil => rw [List.append_nil]; rfl
  | cons line rest ih =>
      rw [List.cons_append, onLines, onLines, ih, List.append_assoc, List.append_assoc,
        List.singleton_append]

/-- A variable that a token of some lines introduces stands on one of them. -/
lemma exists_line_of_introduced {before lines : List TokenLine} {entry : Variable}
    (h : entry ∈ (Occurrence.onLines before lines).filterMap Occurrence.introduced?) :
    ∃ line ∈ lines, entry.place.line = line.number := by
  obtain ⟨occurrence, hmem, hentry⟩ := List.mem_filterMap.mp h
  obtain ⟨_, _, hafter, _⟩ := Occurrence.mem_onLines_iff.mp hmem
  rw [Occurrence.introduced?] at hentry
  split_ifs at hentry
  cases hentry
  exact ⟨occurrence.line, hafter.mem, rfl⟩

/-- The variables of more lines: those of before, then others on the further lines. -/
lemma exists_introduced_append (catalogue : Catalogue) (early late : List TokenLine) :
    ∃ more, (Scope.empty.afterLines catalogue (early ++ late)).introduced.reverse =
        (Scope.empty.afterLines catalogue early).introduced.reverse ++ more ∧
      (∀ entry ∈ (Scope.empty.afterLines catalogue early).introduced.reverse,
        ∃ line ∈ early, entry.place.line = line.number) ∧
      ∀ entry ∈ more, ∃ line ∈ late, entry.place.line = line.number := by
  rw [introduced_afterLines_eq, introduced_afterLines_eq, occurrences, occurrences,
    Occurrence.onLines_append, List.filterMap_append]
  exact ⟨_, rfl, fun _ => exists_line_of_introduced, fun _ => exists_line_of_introduced⟩

/-- A use that is recorded stays recorded. -/
lemma uses_append {early : List TokenLine} {name : List Char} (late : List TokenLine)
    (h : (Scope.empty.afterLines catalogue early).uses name = true) :
    (Scope.empty.afterLines catalogue (early ++ late)).uses name = true := by
  obtain ⟨hbuiltin, line, hline, huse⟩ := Scope.uses_afterLines_iff.mp h
  exact Scope.uses_afterLines_iff.mpr ⟨hbuiltin, line, List.mem_append_left _ hline, huse⟩

end Variables

/-! ### Verdicts -/

/-- The verdict on a longer script, of which the first lines are the shorter one. -/
structure Verdict.Extends (lines : Nat) (short long : Verdict) : Prop where
  /-- The errors about lines stay, and others come behind them. -/
  errors : short.errors.filter (fun issue => issue.code ≠ .unclosedControl) <+: long.errors
  /-- The warnings about lines stay, and others come behind them. -/
  warnings :
    short.warnings.filter (fun issue => issue.code ≠ .unusedVariable) <+: long.warnings
  /-- Of the blocks that are opened on the first lines, further lines close the innermost
  ones. -/
  unclosed :
    long.errors.filter
        (fun issue => issue.code = .unclosedControl ∧ issue.place.line ≤ lines) <+:
      short.errors.filter fun issue => issue.code = .unclosedControl
  /-- Of the variables that are declared on the first lines, further lines use some. -/
  unused :
    List.Sublist
      (long.warnings.filter
        fun issue => issue.code = .unusedVariable ∧ issue.place.line ≤ lines)
      (short.warnings.filter fun issue => issue.code = .unusedVariable)

section Verdicts

variable {early late : List TokenLine} {count : Nat}

/-- Issues on the first lines and issues on further lines are told apart by their lines. -/
lemma filter_line (hearly : ∀ line ∈ early, line.number ≤ count)
    (hlate : ∀ line ∈ late, count < line.number) {told more : List Issue}
    (htold : ∀ issue ∈ told, ∃ line ∈ early, issue.place.line = line.number)
    (hmore : ∀ issue ∈ more, ∃ line ∈ late, issue.place.line = line.number) :
    (told ++ more).filter (fun issue => issue.place.line ≤ count) = told := by
  refine filter_append_eq_left (fun issue hissue => ?_) fun issue hissue => ?_
  · obtain ⟨line, hline, hnumber⟩ := htold issue hissue
    exact decide_eq_true (hnumber ▸ hearly line hline)
  · obtain ⟨line, hline, hnumber⟩ := hmore issue hissue
    exact decide_eq_false (Nat.not_le_of_lt (hnumber ▸ hlate line hline))

lemma unclosedIssues_eq (lines : List TokenLine) :
    unclosedIssues lines =
      (openFrames lines).reverse.map fun frame => Issue.ofFinding frame.unclosed := by
  rw [unclosedIssues, unclosedFindings, List.map_map]
  rfl

/-- The open blocks of the first lines are told in the same order, up to the innermost
ones. -/
lemma unclosedIssues_append (hearly : ∀ line ∈ early, line.number ≤ count)
    (hlate : ∀ line ∈ late, count < line.number) :
    (unclosedIssues (early ++ late)).filter (fun issue => issue.place.line ≤ count) <+:
      unclosedIssues early := by
  obtain ⟨fresh, closed, hframes, hfresh⟩ := exists_openFrames_append early late
  rw [unclosedIssues_eq, unclosedIssues_eq, hframes, List.reverse_append, List.map_append,
    filter_line hearly hlate]
  · exact (List.reverse_prefix.mpr (List.drop_suffix closed _)).map _
  · refine List.forall_mem_map.mpr fun frame hframe => ?_
    exact exists_line_of_openFrames (List.mem_of_mem_drop (List.mem_reverse.mp hframe))
  · exact List.forall_mem_map.mpr fun frame hframe => hfresh frame (List.mem_reverse.mp hframe)

/-- The issue on a variable that is not used. -/
def Variable.unusedIssue (entry : Variable) : Issue :=
  Issue.ofFinding ⟨entry.place, .unused (String.ofList entry.name)⟩

lemma unusedIssues_eq (catalogue : Catalogue) (lines : List TokenLine) :
    unusedIssues catalogue lines =
      ((Scope.empty.afterLines catalogue lines).introduced.reverse.filter fun entry =>
        !(Scope.empty.afterLines catalogue lines).uses entry.name).map
          Variable.unusedIssue := by
  rw [unusedIssues, Scope.unusedFindings, List.map_map]
  rfl

/-- The unused variables of the first lines are told in the same order, without those that
further lines use. -/
lemma unusedIssues_append (catalogue : Catalogue)
    (hearly : ∀ line ∈ early, line.number ≤ count)
    (hlate : ∀ line ∈ late, count < line.number) :
    ((unusedIssues catalogue (early ++ late)).filter fun issue =>
      issue.place.line ≤ count).Sublist (unusedIssues catalogue early) := by
  obtain ⟨more, hvariables, hfirst, hmore⟩ := exists_introduced_append catalogue early late
  rw [unusedIssues_eq, unusedIssues_eq, hvariables, List.filter_append, List.map_append,
    filter_line hearly hlate]
  · refine List.Sublist.map _ (List.monotone_filter_right _ fun entry hunused => ?_)
    rw [Bool.not_eq_true'] at hunused ⊢
    exact Bool.eq_false_iff.mpr (mt (uses_append late) (Bool.eq_false_iff.mp hunused))
  · exact List.forall_mem_map.mpr fun entry hentry => hfirst entry (List.mem_of_mem_filter hentry)
  · exact List.forall_mem_map.mpr fun entry hentry => hmore entry (List.mem_of_mem_filter hentry)

/-- Issues about lines, and behind them issues of one other code that are told at the end. -/
structure EndsWithCode (terminal : IssueCode) (issues told left : List Issue) : Prop where
  eq : issues = told ++ left
  told_ne : ∀ issue ∈ told, issue.code ≠ terminal
  left_eq : ∀ issue ∈ left, issue.code = terminal

namespace EndsWithCode

variable {terminal : IssueCode} {issues told left : List Issue}

/-- The other code tells both apart. -/
lemma filter_ne (h : EndsWithCode terminal issues told left) :
    issues.filter (fun issue => issue.code ≠ terminal) = told := by
  rw [h.eq]
  exact filter_append_eq_left (fun issue hissue => decide_eq_true (h.told_ne issue hissue))
    fun issue hissue => decide_eq_false (not_not_intro (h.left_eq issue hissue))

lemma filter_eq (h : EndsWithCode terminal issues told left) :
    issues.filter (fun issue => issue.code = terminal) = left := by
  rw [h.eq]
  exact filter_append_eq_right (fun issue hissue => decide_eq_false (h.told_ne issue hissue))
    fun issue hissue => decide_eq_true (h.left_eq issue hissue)

/-- So it does up to a line. -/
lemma filter_eq_and_le (h : EndsWithCode terminal issues told left) (count : Nat) :
    issues.filter (fun issue => issue.code = terminal ∧ issue.place.line ≤ count) =
      left.filter fun issue => issue.place.line ≤ count := by
  rw [h.eq, List.filter_append, List.filter_eq_nil_iff.mpr, List.nil_append]
  · refine List.filter_congr fun issue hissue => ?_
    simp [h.left_eq issue hissue]
  · intro issue hissue hcode
    exact h.told_ne issue hissue (of_decide_eq_true hcode).1

end EndsWithCode

/-- The errors of a verdict end with the blocks that are left open. -/
lemma errors_endsWithCode (settings : Settings) {lines : List TokenLine} (h : LinesOrdered lines) :
    EndsWithCode .unclosedControl (verdictOn settings lines).errors
      ((lineIssues settings.catalogue lines).filter Issue.isError) (unclosedIssues lines) where
  eq := errors_verdictOn settings lines
  told_ne _ hissue := (code_of_mem_lineIssues h (List.mem_of_mem_filter hissue)).1
  left_eq _ hissue := (code_of_mem_unclosedIssues hissue).1

/-- The warnings of a verdict end with the variables that are not used. -/
lemma warnings_endsWithCode (settings : Settings) {lines : List TokenLine}
    (h : LinesOrdered lines) :
    EndsWithCode .unusedVariable (verdictOn settings lines).warnings
      ((lineIssues settings.catalogue lines).filter fun issue => !issue.isError)
      (unusedIssues settings.catalogue lines) where
  eq := warnings_verdictOn settings lines
  told_ne _ hissue := (code_of_mem_lineIssues h (List.mem_of_mem_filter hissue)).2
  left_eq _ hissue := (code_of_mem_unusedIssues hissue).1

/-- Further lines extend the verdict on the lines before them. -/
theorem verdictOn_append (settings : Settings) (hordered : LinesOrdered (early ++ late))
    (hearly : ∀ line ∈ early, line.number ≤ count)
    (hlate : ∀ line ∈ late, count < line.number) :
    (verdictOn settings early).Extends count (verdictOn settings (early ++ late)) := by
  have hshort : LinesOrdered early :=
    ⟨(List.pairwise_append.mp hordered.numbers).1,
      fun line hline => hordered.columns line (List.mem_append_left _ hline)⟩
  obtain ⟨more, hmore⟩ := exists_lineIssues_append settings.catalogue early late
  have herrors := errors_endsWithCode settings hshort
  have hwarnings := warnings_endsWithCode settings hshort
  constructor
  · rw [herrors.filter_ne, errors_verdictOn, hmore, List.filter_append, List.append_assoc]
    exact List.prefix_append _ _
  · rw [hwarnings.filter_ne, warnings_verdictOn, hmore, List.filter_append, List.append_assoc]
    exact List.prefix_append _ _
  · rw [herrors.filter_eq, (errors_endsWithCode settings hordered).filter_eq_and_le]
    exact unclosedIssues_append hearly hlate
  · rw [hwarnings.filter_eq, (warnings_endsWithCode settings hordered).filter_eq_and_le]
    exact unusedIssues_append _ hearly hlate

end Verdicts

/-- **More lines**: a line feed and more text behind a text that does not end in CR extend
its verdict, for which the text has all its physical lines, and no cost becomes less. -/
theorem analyze_append (text rest : String) (h : text.toList.getLast? ≠ some '\r') :
    (Analyzer.standard.analyze text).Extends
        (Text.physicalLines (Text.unifyEndings text.toList)).length
        (Analyzer.standard.analyze (text ++ "\n" ++ rest)) ∧
      (Analyzer.standard.analyze text).performance.AtMost
        (Analyzer.standard.analyze (text ++ "\n" ++ rest)).performance := by
  obtain ⟨late, hlines, hearly, hlate⟩ :=
    exists_ofSource_append Settings.standard.markers h rest.toList
  have hordered := linesOrdered_ofSource Settings.standard.markers
    (text.toList ++ '\n' :: rest.toList)
  have hshort : Analyzer.standard.analyze text = verdictOn Settings.standard
      (TokenLine.ofSource Settings.standard.markers text.toList) := rfl
  have hlong : Analyzer.standard.analyze (text ++ "\n" ++ rest) = verdictOn Settings.standard
      (TokenLine.ofSource Settings.standard.markers text.toList ++ late) := by
    rw [← hlines]
    have hsource : (text ++ "\n" ++ rest).toList = text.toList ++ '\n' :: rest.toList := by
      simp
    rw [← hsource]
    rfl
  rw [hlines] at hordered
  rw [hshort, hlong]
  refine ⟨verdictOn_append _ hordered hearly hlate, ?_⟩
  have htotal := totalCost_append
    ((TokenLine.ofSource Settings.standard.markers text.toList).map TokenLine.tokens)
    (late.map TokenLine.tokens)
  rw [← List.map_append] at htotal
  exact htotal

/-- A script that ends inside a block comment, with a variable that the longer one uses. -/
theorem analyze_append_in_comment :
    "var n /*".toList.getLast? ≠ some '\r' ∧
      (Analyzer.standard.analyze "var n /*").Extends
          (Text.physicalLines (Text.unifyEndings "var n /*".toList)).length
          (Analyzer.standard.analyze ("var n /*" ++ "\n" ++ "if x */ n")) ∧
        (Analyzer.standard.analyze "var n /*").performance.AtMost
          (Analyzer.standard.analyze ("var n /*" ++ "\n" ++ "if x */ n")).performance :=
  ⟨by decide, analyze_append "var n /*" "if x */ n" (by decide)⟩

end ScriptLint
