import Mathlib
import ScriptLint.Proofs.Growth
import ScriptLint.Proofs.Labels.Relabelled
import ScriptLint.Proofs.Layout.Lines

/-!
The layout of a script: lines that hold nothing, and indentation.

* `Relabelling.lineInserted`, `Relabelling.lineIndented`: the places after a line is put
  between others, and after a line is moved to the right.
* `ofSource_inserted`, `ofSource_indented`: the token lines of the new script are the old ones
  at their new places.
* `HoldsNothing`: blank lines, and line comments outside a block comment.
* `analyze_layout`: a line that holds nothing, and indentation, only move what a verdict tells.
-/

namespace ScriptLint

open Text (isBlank)

/-! ### New places -/

namespace Relabelling

/-- The token in its new column. -/
def placed (labels : Relabelling) (number : Nat) (token : Token) : Token :=
  { token with column := labels.column number token.column }

/-- Where names stay, new columns are all that a token needs. -/
lemma relabels_placed {labels : Relabelling} (h : labels.name = id) (number : Nat) :
    labels.Relabels number (labels.placed number) where
  kind _ := rfl
  column _ := rfl
  name token _ := by rw [h]; rfl
  numeral _ _ := rfl

/-- One line is put behind as many others: the numbers of the lines that follow are greater
by one. -/
def lineInserted (before : Nat) : Relabelling where
  name := id
  line number := if number ≤ before then number else number + 1
  column _ column := column

/-- One line begins with as many more blanks: its columns are greater by their number. -/
def lineIndented (number count : Nat) : Relabelling where
  name := id
  line := id
  column other column := if other = number then column + count else column

section Placed

variable {before number other count : Nat}

lemma lineInserted_line :
    (lineInserted before).line number = if number ≤ before then number else number + 1 := rfl

lemma lineInserted_placed : (lineInserted before).placed number = id := rfl

lemma lineIndented_placed : (lineIndented number count).placed number = Token.shifted count := by
  funext token
  simp [placed, lineIndented, Token.shifted]

lemma lineIndented_placed_of_ne (h : other ≠ number) :
    (lineIndented number count).placed other = id := by
  funext token
  simp [placed, lineIndented, h]

end Placed

end Relabelling

/-! ### Token lines -/

/-- A line without line endings, put between lines without them. -/
lemma Text.Unbroken.inserted {early late : List (List Char)} {line : List Char}
    (h : Unbroken (early ++ late)) (hline : '\r' ∉ line ∧ '\n' ∉ line) :
    Unbroken (early ++ line :: late) := by
  intro other hother
  rcases List.mem_append.mp hother with hearly | hrest
  · exact h other (List.mem_append_left _ hearly)
  · rcases List.mem_cons.mp hrest with rfl | hlate
    · exact hline
    · exact h other (List.mem_append_right _ hlate)

/-- The tokens of a source line, with its number. -/
def TokenLine.ofLine (line : SourceLine) : TokenLine :=
  ⟨line.number, Token.ofLine line⟩

section TokenLines

variable {markers : Markers} {number : Nat} {inComment : Bool} {line : SourceLine}
  {early late : List (List Char)}

/-- The token lines of a text that is given by its lines. -/
lemma TokenLine.ofSource_intercalate {lines : List (List Char)} (h : Text.Unbroken lines) :
    ofSource markers (List.intercalate ['\n'] lines) =
      (SourceLine.scanFrom markers 1 false lines).map ofLine := by
  rw [ofSource, SourceLine.scan_intercalate h]
  rfl

/-- The lines in front of an inserted line stay where they are. -/
lemma TokenLine.relabelled_inserted_of_le {before : Nat} (h : line.number ≤ before) :
    (ofLine line).relabelled (.lineInserted before) (Relabelling.lineInserted before).placed =
      ofLine line := by
  rw [relabelled, Relabelling.lineInserted_line, Relabelling.lineInserted_placed, ofLine,
    if_pos h, List.map_id]

/-- The lines behind an inserted line have greater numbers. -/
lemma TokenLine.relabelled_inserted_of_lt {before : Nat} (h : before < line.number) :
    (ofLine line).relabelled (.lineInserted before) (Relabelling.lineInserted before).placed =
      ofLine { line with number := line.number + 1 } := by
  rw [relabelled, Relabelling.lineInserted_line, Relabelling.lineInserted_placed, ofLine,
    if_neg (Nat.not_le.mpr h), List.map_id]
  rfl

/-- **An inserted line** that holds nothing and leaves a block comment open or closed as it
finds it: the token lines behind it have greater numbers. -/
theorem TokenLine.ofSource_inserted {inserted : List Char}
    (hlines : Text.Unbroken (early ++ inserted :: late))
    (hnothing : ∀ number, SourceLine.ofPhysical markers number (commentOpen markers false early)
      inserted = (none, commentOpen markers false early)) :
    ofSource markers (List.intercalate ['\n'] (early ++ inserted :: late)) =
      (ofSource markers (List.intercalate ['\n'] (early ++ late))).map
        (relabelled (.lineInserted early.length)
          (Relabelling.lineInserted early.length).placed) := by
  have hold : Text.Unbroken (early ++ late) := by
    intro line hline
    refine hlines line ?_
    simp only [List.mem_append, List.mem_cons] at hline ⊢
    tauto
  have hskip : SourceLine.scanFrom markers (1 + early.length) (commentOpen markers false early)
      (inserted :: late) =
        (SourceLine.scanFrom markers (1 + early.length) (commentOpen markers false early)
          late).map fun line => { line with number := line.number + 1 } := by
    rw [SourceLine.scanFrom, hnothing, ← SourceLine.scanFrom_add]
    rfl
  rw [ofSource_intercalate hlines, ofSource_intercalate hold, SourceLine.scanFrom_append,
    SourceLine.scanFrom_append, hskip]
  rw [List.map_append, List.map_append, List.map_append, List.map_map, List.map_map, List.map_map]
  refine congrArg₂ (· ++ ·) (List.map_congr_left fun line hline => ?_)
    (List.map_congr_left fun line hline => ?_)
  · have hnumber := SourceLine.number_of_mem_scanFrom hline
    exact (relabelled_inserted_of_le (by omega)).symm
  · have hnumber := SourceLine.number_of_mem_scanFrom hline
    exact (relabelled_inserted_of_lt (by omega)).symm

/-- The tokens of an indented line. -/
lemma TokenLine.relabelled_indented (line : SourceLine) (count : Nat) :
    (ofLine line).relabelled (.lineIndented line.number count)
      (Relabelling.lineIndented line.number count).placed = ofLine (line.indented count) := by
  rw [relabelled, ofLine, Relabelling.lineIndented_placed, ofLine, SourceLine.ofLine_indented]
  rfl

/-- The other lines stay where they are. -/
lemma TokenLine.relabelled_indented_of_ne {count : Nat} (h : line.number ≠ number) :
    (ofLine line).relabelled (.lineIndented number count)
      (Relabelling.lineIndented number count).placed = ofLine line := by
  rw [relabelled, ofLine, Relabelling.lineIndented_placed_of_ne h, List.map_id]
  rfl

/-- **An indented line**: its tokens stand further to the right. -/
theorem TokenLine.ofSource_indented (hmarkers : markers.Unblank) {physical blanks : List Char}
    (hlines : Text.Unbroken (early ++ physical :: late))
    (hnew : Text.Unbroken (early ++ (blanks ++ physical) :: late))
    (hblanks : ∀ c ∈ blanks, isBlank c = true) :
    ofSource markers (List.intercalate ['\n'] (early ++ (blanks ++ physical) :: late)) =
      (ofSource markers (List.intercalate ['\n'] (early ++ physical :: late))).map
        (relabelled (.lineIndented (early.length + 1) blanks.length)
          (Relabelling.lineIndented (early.length + 1) blanks.length).placed) := by
  have hcons : ∀ number inComment physical,
      SourceLine.scanFrom markers number inComment (physical :: late) =
        (SourceLine.ofPhysical markers number inComment physical).1.toList ++
          SourceLine.scanFrom markers (number + 1)
            (SourceLine.ofPhysical markers number inComment physical).2 late :=
    fun _ _ _ => rfl
  rw [ofSource_intercalate hlines, ofSource_intercalate hnew, SourceLine.scanFrom_append,
    SourceLine.scanFrom_append, hcons, hcons,
    SourceLine.ofPhysical_append_blanks hmarkers hblanks]
  simp only [List.map_append, List.map_map]
  refine congrArg₂ (· ++ ·) (List.map_congr_left fun line hline => ?_)
    (congrArg₂ (· ++ ·) ?_ (List.map_congr_left fun line hline => ?_))
  · have hnumber := SourceLine.number_of_mem_scanFrom hline
    exact (relabelled_indented_of_ne (by omega)).symm
  · cases hline : (SourceLine.ofPhysical markers (1 + early.length)
        (commentOpen markers false early) physical).1 with
    | none => rfl
    | some line =>
        obtain ⟨hnumber, _⟩ := SourceLine.liesIn_of_ofPhysical hline
        have hindented := relabelled_indented line blanks.length
        rw [hnumber, Nat.add_comm] at hindented
        exact congrArg (fun line => [line]) hindented.symm
  · have hnumber := SourceLine.number_of_mem_scanFrom hline
    exact (relabelled_indented_of_ne (by omega)).symm

end TokenLines

/-! ### Verdicts -/

/-- The script of some lines. -/
def scriptOfLines (lines : List (List Char)) : String :=
  String.ofList (List.intercalate ['\n'] lines)

/-- A line that holds nothing, given whether a block comment is open before it: it is blank, or
it begins with a line comment. -/
inductive HoldsNothing (inComment : Bool) (line : List Char) : Prop where
  | blank (h : ∀ c ∈ line, isBlank c = true)
  | comment (houtside : inComment = false) (h : "//".toList <+: Text.trimStart line)

section Verdicts

variable {inComment : Bool} {line : List Char}

/-- No source line is read from a line that holds nothing, and a block comment goes on. -/
lemma HoldsNothing.ofPhysical_eq (h : HoldsNothing inComment line) (number : Nat) :
    SourceLine.ofPhysical Settings.standard.markers number inComment line = (none, inComment) := by
  have hmarkers : Settings.standard.markers.Unblank := by decide
  cases h with
  | blank h => exact SourceLine.ofPhysical_blank hmarkers h
  | comment houtside h =>
      rw [houtside]
      exact SourceLine.ofPhysical_lineComment hmarkers
        (Markers.standsAt_iff.mpr ⟨by decide, h⟩)

/-- The verdict on a script that is given by its lines. -/
lemma analyze_scriptOfLines (lines : List (List Char)) :
    Analyzer.standard.analyze (scriptOfLines lines) = verdictOn Settings.standard
      (TokenLine.ofSource Settings.standard.markers (List.intercalate ['\n'] lines)) := by
  rw [← String.toList_ofList (l := List.intercalate ['\n'] lines)]
  rfl

/-- **Layout**: a line that holds nothing, put between the lines of a script, moves what
follows by one line, also where a message tells the line of an open block. Blanks before a line
move its issues by as many columns. Nothing else changes in the verdict. -/
theorem analyze_layout (early late : List (List Char)) (h : Text.Unbroken (early ++ late)) :
    (∀ inserted, '\r' ∉ inserted ∧ '\n' ∉ inserted →
      HoldsNothing (commentOpen Settings.standard.markers false early) inserted →
      (Analyzer.standard.analyze (scriptOfLines (early ++ late))).Relabelled
        (.lineInserted early.length)
        (Analyzer.standard.analyze (scriptOfLines (early ++ inserted :: late)))) ∧
    ∀ line blanks, '\r' ∉ blanks ++ line ∧ '\n' ∉ blanks ++ line →
      (∀ c ∈ blanks, isBlank c = true) →
      (Analyzer.standard.analyze (scriptOfLines (early ++ line :: late))).Relabelled
        (.lineIndented (early.length + 1) blanks.length)
        (Analyzer.standard.analyze (scriptOfLines (early ++ (blanks ++ line) :: late))) := by
  have hmarkers : Settings.standard.markers.Unblank := by decide
  refine ⟨fun inserted hinserted hnothing => ?_, fun line blanks hunbroken hblanks => ?_⟩
  · have hlines := TokenLine.ofSource_inserted (h.inserted hinserted) hnothing.ofPhysical_eq
    rw [analyze_scriptOfLines, analyze_scriptOfLines, hlines]
    exact verdictOn_relabelled _ (Relabelling.faithful_of_name_eq rfl _)
      (Relabelling.relabels_placed rfl) _
  · have hline : '\r' ∉ line ∧ '\n' ∉ line :=
      ⟨fun hmem => hunbroken.1 (List.mem_append_right _ hmem),
        fun hmem => hunbroken.2 (List.mem_append_right _ hmem)⟩
    have hlines := TokenLine.ofSource_indented hmarkers (h.inserted hline)
      (h.inserted hunbroken) hblanks
    rw [analyze_scriptOfLines, analyze_scriptOfLines, hlines]
    exact verdictOn_relabelled _ (Relabelling.faithful_of_name_eq rfl _)
      (Relabelling.relabels_placed rfl) _

/-- A block that is closed by a word of another kind, below a comment: a line of blanks in the
comment moves the line that the message tells, and blanks move the column of the word. -/
theorem analyze_layout_mismatched :
    Text.Unbroken ["/*".toList, "*/ if n".toList, "endwhile".toList] ∧
      (Analyzer.standard.analyze (scriptOfLines
          ["/*".toList, "*/ if n".toList, "endwhile".toList])).errors.map Issue.display =
        ["2:7: error[UNDECLARED_VARIABLE]: Variable 'n' is used before declaration",
          "3:1: error[UNMATCHED_ENDWHILE]: 'endwhile' does not match 'if' opened at line 2"] ∧
      (Analyzer.standard.analyze (scriptOfLines
          ["/*".toList, "*/ if n".toList, "endwhile".toList])).Relabelled (.lineInserted 1)
        (Analyzer.standard.analyze (scriptOfLines
          ["/*".toList, " \t".toList, "*/ if n".toList, "endwhile".toList])) ∧
      (Analyzer.standard.analyze (scriptOfLines
          ["/*".toList, "*/ if n".toList, "endwhile".toList])).Relabelled (.lineIndented 3 2)
        (Analyzer.standard.analyze (scriptOfLines
          ["/*".toList, "*/ if n".toList, "  endwhile".toList])) :=
  ⟨by decide, by decide +kernel,
    (analyze_layout ["/*".toList] ["*/ if n".toList, "endwhile".toList] (by decide)).1
      " \t".toList (by decide) (.blank (List.all_eq_true.mp (by decide))),
    (analyze_layout ["/*".toList, "*/ if n".toList] [] (by decide)).2
      "endwhile".toList "  ".toList (by decide) (List.all_eq_true.mp (by decide))⟩

end Verdicts

end ScriptLint
