import Mathlib
import ScriptLint.Proofs.Layout.Lines
import ScriptLint.Proofs.Reading.CommentFree

/-!
The script that is left of a script without its comments.

* `SourceLine.written`, `SourceLine.writtenAt`: a source line in its place, and what stands in
  the physical line of a number.
* `SourceLine.codeOnly`: source lines written as a script, each in its physical line.
* `SourceLine.IsBare`: what a source line has to be in order to be read back; those of a script
  are so (`isBare_of_mem_scan`).
* `scanFrom_writtenAt`: bare source lines in the order of their numbers are read back.
* `scan_codeOnly`: to scan what a scan has left changes nothing, and no comment is left in it.
-/

namespace ScriptLint

open Text (isBlank)

namespace SourceLine

/-! ### Source lines as a script -/

/-- The source line in its physical line: a space for each character that was cut off before
the code, then the code. -/
def written (line : SourceLine) : List Char :=
  List.replicate line.indent ' ' ++ line.text

/-- The physical line of this number: empty, if there is no such source line. -/
def writtenAt (lines : List SourceLine) (number : Nat) : List Char :=
  ((lines.find? (·.number == number)).map written).getD []

/-- The number of the last source line. -/
def lastNumber (lines : List SourceLine) : Nat :=
  (lines.getLast?.map (·.number)).getD 0

/-- The source lines written as a script, up to the last of them. -/
def codeOnly (lines : List SourceLine) : List Char :=
  List.intercalate ['\n'] ((List.range' 1 (lastNumber lines)).map (writtenAt lines))

/-- The source line is read back from where it is written: it holds trimmed code, with no
comment that could begin in it, and no line ending. -/
structure IsBare (markers : Markers) (line : SourceLine) : Prop where
  text_ne_nil : line.text ≠ []
  trim_eq : Text.trim line.text = line.text
  commentFree : CommentFree markers .code line.text
  unbroken : '\r' ∉ line.text ∧ '\n' ∉ line.text

variable {markers : Markers} {line : SourceLine} {lines : List SourceLine} {number : Nat}

/-! ### Numbers -/

lemma writtenAt_cons_self : writtenAt (line :: lines) line.number = line.written := by
  rw [writtenAt, List.find?_cons_of_pos (by simp), Option.map_some, Option.getD_some]

lemma writtenAt_cons_of_ne (h : line.number ≠ number) :
    writtenAt (line :: lines) number = writtenAt lines number := by
  rw [writtenAt, List.find?_cons_of_neg (by simpa using h), writtenAt]

lemma writtenAt_of_ne (h : ∀ line ∈ lines, line.number ≠ number) :
    writtenAt lines number = [] := by
  rw [writtenAt, List.find?_eq_none.mpr (by simpa using h)]
  rfl

/-- What stands in a physical line is nothing, or a source line. -/
lemma writtenAt_cases (lines : List SourceLine) (number : Nat) :
    writtenAt lines number = [] ∨ ∃ line ∈ lines, writtenAt lines number = line.written := by
  rw [writtenAt]
  cases hfind : lines.find? (·.number == number) with
  | none => exact .inl rfl
  | some line => exact .inr ⟨line, List.mem_of_find?_eq_some hfind, rfl⟩

/-- No number is greater than that of the last source line. -/
lemma number_le_lastNumber (h : lines.Pairwise fun a b => a.number < b.number)
    (hmem : line ∈ lines) : line.number ≤ lastNumber lines := by
  obtain ⟨early, last, rfl⟩ :=
    (List.eq_nil_or_concat' lines).resolve_left (List.ne_nil_of_mem hmem)
  have hlast : lastNumber (early ++ [last]) = last.number := by
    rw [lastNumber, List.getLast?_concat, Option.map_some, Option.getD_some]
  rw [hlast]
  rcases List.mem_append.mp hmem with hearly | hend
  · exact ((List.pairwise_append.mp h).2.2 line hearly last List.mem_cons_self).le
  · rw [List.mem_singleton.mp hend]

/-! ### Bare source lines -/

/-- No comment begins in a bare source line where it is written, and it has no line ending. -/
lemma IsBare.written_spec (h : line.IsBare markers) (hmarkers : markers.Unblank) :
    CommentFree markers .code line.written ∧ '\r' ∉ line.written ∧ '\n' ∉ line.written := by
  have hnot : ∀ c, c ≠ ' ' → c ∉ line.text → c ∉ line.written := by
    intro c hspace htext hmem
    rcases List.mem_append.mp hmem with hmem | hmem
    · exact hspace (List.eq_of_mem_replicate hmem)
    · exact htext hmem
  exact ⟨h.commentFree.append_blanks hmarkers fun _ => Text.isBlank_of_mem_spaces,
    hnot _ (by decide) h.unbroken.1, hnot _ (by decide) h.unbroken.2⟩

/-- A bare source line is read back from its physical line. -/
lemma IsBare.ofPhysical_written (h : line.IsBare markers) (hmarkers : markers.Unblank) :
    ofPhysical markers line.number false line.written = (some line, false) := by
  have hblanks : ∀ c ∈ List.replicate line.indent ' ', isBlank c = true := fun _ =>
    Text.isBlank_of_mem_spaces
  have hsift : sift markers false line.text = ⟨line.text, false⟩ := h.commentFree.siftFrom_eq rfl
  have hstart : Text.trimStart line.text = line.text := by
    obtain ⟨c, rest, htext⟩ := List.exists_cons_of_ne_nil h.text_ne_nil
    rw [htext, Text.trimStart_cons_of_not_blank rest
      (Text.not_blank_of_trim_cons (h.trim_eq.trans htext))]
  obtain ⟨hline, hopen⟩ := h.commentFree [] line.text rfl rfl
  have hleading : Text.leadingBlanks line.text = 0 := by
    rw [← h.trim_eq, Text.leadingBlanks_trim]
  have hnonempty : ¬ line.text.isEmpty = true := by
    rw [List.isEmpty_iff]
    exact h.text_ne_nil
  rw [written, ofPhysical_append_blanks hmarkers hblanks, ofPhysical_eq_sift hmarkers, hstart,
    hline, hopen, hsift]
  dsimp only
  rw [ofShown?, h.trim_eq, if_neg hnonempty, hleading, List.length_replicate]
  simp [indented]

/-- No comment begins in what stands in a physical line, and it has no line ending. -/
lemma writtenAt_spec (hmarkers : markers.Unblank) (hlines : ∀ line ∈ lines, line.IsBare markers)
    (number : Nat) :
    CommentFree markers .code (writtenAt lines number) ∧
      '\r' ∉ writtenAt lines number ∧ '\n' ∉ writtenAt lines number := by
  rcases writtenAt_cases lines number with hnil | ⟨line, hmem, hline⟩
  · rw [hnil]
    exact ⟨commentFree_nil, List.not_mem_nil, List.not_mem_nil⟩
  · rw [hline]
    exact (hlines line hmem).written_spec hmarkers

/-- **Bare source lines** in the order of their numbers are read back from the physical lines
of a range that holds all their numbers. The induction is on the length of the range. -/
theorem scanFrom_writtenAt (hmarkers : markers.Unblank)
    (hlines : ∀ line ∈ lines, line.IsBare markers)
    (hordered : lines.Pairwise fun a b => a.number < b.number) (count : Nat)
    (hrange : ∀ line ∈ lines, number ≤ line.number ∧ line.number < number + count) :
    scanFrom markers number false ((List.range' number count).map (writtenAt lines)) = lines := by
  induction count generalizing number lines with
  | zero =>
      cases lines with
      | nil => rfl
      | cons line later =>
          have hnumber := hrange line List.mem_cons_self
          omega
  | succ count ih =>
      have hcons : ∀ physical later, scanFrom markers number false (physical :: later) =
          (ofPhysical markers number false physical).1.toList ++
            scanFrom markers (number + 1) (ofPhysical markers number false physical).2 later :=
        fun _ _ => rfl
      rw [List.range'_succ, List.map_cons, hcons]
      by_cases hfirst : ∃ line later, lines = line :: later ∧ line.number = number
      · obtain ⟨line, later, rfl, rfl⟩ := hfirst
        obtain ⟨hbefore, hlater⟩ := List.pairwise_cons.mp hordered
        have hmap : (List.range' (line.number + 1) count).map (writtenAt (line :: later)) =
            (List.range' (line.number + 1) count).map (writtenAt later) := by
          refine List.map_congr_left fun other hother => writtenAt_cons_of_ne ?_
          have hle := (List.mem_range'_1.mp hother).1
          omega
        have hrest : scanFrom markers (line.number + 1) false
            ((List.range' (line.number + 1) count).map (writtenAt later)) = later := by
          refine ih (fun other hother => hlines other (List.mem_cons_of_mem line hother)) hlater
            fun other hother => ?_
          have hlt := hbefore other hother
          have hnumber := hrange other (List.mem_cons_of_mem line hother)
          omega
        have hline := hlines line List.mem_cons_self
        rw [writtenAt_cons_self, hline.ofPhysical_written hmarkers, hmap, hrest]
        rfl
      · -- no source line has this number, and the physical line is empty
        have hlt : ∀ line ∈ lines, number < line.number := by
          intro line hmem
          obtain ⟨first, later, rfl⟩ := List.exists_cons_of_ne_nil (List.ne_nil_of_mem hmem)
          have hne : first.number ≠ number := fun heq => hfirst ⟨first, later, rfl, heq⟩
          have hle := (hrange first List.mem_cons_self).1
          rcases List.mem_cons.mp hmem with rfl | hlater
          · omega
          · have hbefore := (List.pairwise_cons.mp hordered).1 line hlater
            omega
        have hempty : ofPhysical markers number false [] = (none, false) := rfl
        rw [writtenAt_of_ne fun line hmem => (hlt line hmem).ne', hempty]
        refine ih hlines hordered fun line hmem => ?_
        have hnumber := hrange line hmem
        have hgreater := hlt line hmem
        omega

/-! ### The source lines of a script -/

/-- Sifting puts no character into a source line but spaces. -/
lemma LiesIn.mem_physical {inComment : Bool} {physical : List Char} {c : Char}
    (h : line.LiesIn markers inComment physical) (hc : c ≠ ' ') (hmem : c ∈ line.text) :
    c ∈ physical := by
  obtain ⟨leading, trailing, hshown, _⟩ := h.exists_shown
  have hshows : c ∈ (siftFrom markers (Zone.ofStart inComment) physical).shown := by
    rw [show (siftFrom markers (Zone.ofStart inComment) physical).shown =
      leading ++ (line.text ++ trailing) from hshown]
    exact List.mem_append_right _ (List.mem_append_left _ hmem)
  obtain ⟨index, hget⟩ := List.mem_iff_getElem?.mp hshows
  exact List.mem_of_getElem? (getElem?_of_shown hc hget)

/-- No comment begins in a source line: it is a part of what is shown of its physical line,
behind blanks. -/
lemma LiesIn.commentFree {inComment : Bool} {physical : List Char}
    (h : line.LiesIn markers inComment physical) (hmarkers : markers.Unblank) :
    CommentFree markers .code line.text := by
  obtain ⟨leading, trailing, hshown, _, hleading, _⟩ := h.exists_shown
  have hcode := (code_of_not_quote fun c hc => not_quote_of_blank (hleading c hc)).2
  have hfree := commentFree_shown hmarkers (Zone.ofStart inComment) physical
  rw [show (siftFrom markers (Zone.ofStart inComment) physical).shown =
    leading ++ (line.text ++ trailing) from hshown, Zone.uncommented_ofStart] at hfree
  have htext := hfree.of_append_right
  rw [hcode] at htext
  exact htext.of_append_left

/-- The source lines of a script are bare. -/
theorem isBare_of_mem_scan (hmarkers : markers.Unblank) {source : List Char}
    (h : line ∈ scan markers source) : line.IsBare markers := by
  obtain ⟨_, physical, hphysical, _, hlies⟩ := exists_liesIn_of_scanFrom h
  obtain ⟨hreturn, hfeed⟩ :=
    Text.unbroken_physicalLines source physical (List.mem_of_getElem? hphysical)
  exact {
    text_ne_nil := text_ne_nil_of_mem_scanFrom h
    trim_eq := trim_text_of_mem_scanFrom h
    commentFree := hlies.commentFree hmarkers
    unbroken := ⟨fun hmem => hreturn (hlies.mem_physical (by decide) hmem),
      fun hmem => hfeed (hlies.mem_physical (by decide) hmem)⟩ }

/-- **Code only**: where no marker holds a blank, scanning the script that a scan has left of a
script finds the same source lines, and every analyzer comes to the same verdict. No character
of the script that is left is part of a comment. -/
theorem scan_codeOnly (hmarkers : markers.Unblank) (source : List Char) :
    scan markers (codeOnly (scan markers source)) = scan markers source ∧
    (∀ mark ∈ Region.code.marks markers (codeOnly (scan markers source)),
      mark.isComment = false) ∧
    ∀ analyzer : Analyzer, analyzer.settings.markers = markers →
      analyzer.analyze (String.ofList (codeOnly (scan markers source))) =
        analyzer.analyze (String.ofList source) := by
  have hbare : ∀ line ∈ scan markers source, line.IsBare markers := fun _ hmem =>
    isBare_of_mem_scan hmarkers hmem
  have hordered : (scan markers source).Pairwise fun a b => a.number < b.number :=
    pairwise_scanFrom _ _ _
  have hphysical : ∀ physical ∈ (List.range' 1 (lastNumber (scan markers source))).map
      (writtenAt (scan markers source)),
        CommentFree markers .code physical ∧ '\r' ∉ physical ∧ '\n' ∉ physical := by
    intro physical hmem
    obtain ⟨number, _, rfl⟩ := List.mem_map.mp hmem
    exact writtenAt_spec hmarkers hbare number
  have hscan : scan markers (codeOnly (scan markers source)) = scan markers source := by
    rw [codeOnly, scan_intercalate fun physical hmem => (hphysical physical hmem).2]
    refine scanFrom_writtenAt hmarkers hbare hordered _ fun line hmem => ?_
    have hfirst := (number_of_mem_scanFrom hmem).1
    have hlast := number_le_lastNumber hordered hmem
    omega
  refine ⟨hscan, ?_, ?_⟩
  · exact Region.not_isComment_of_lines hmarkers fun physical hmem =>
      ⟨(hphysical physical hmem).1, (hphysical physical hmem).2.2⟩
  · rintro analyzer rfl
    simp only [Analyzer.analyze, Analyzer.run, String.toList_ofList, TokenLine.ofSource, hscan]

/-- A comment over two lines, and a marker in a literal before a line comment. -/
theorem scan_codeOnly_comment_over_lines :
    Settings.standard.markers.Unblank ∧
      Analyzer.standard.settings.markers = Settings.standard.markers ∧
      codeOnly (scan Settings.standard.markers "x /* a\r\n b */ y\r\rz('// c') // d\n".toList) =
        "x\n      y\n\nz('// c')".toList ∧
      scan Settings.standard.markers "x\n      y\n\nz('// c')".toList =
        scan Settings.standard.markers "x /* a\r\n b */ y\r\rz('// c') // d\n".toList ∧
      Analyzer.standard.analyze (String.ofList "x\n      y\n\nz('// c')".toList) =
        Analyzer.standard.analyze
          (String.ofList "x /* a\r\n b */ y\r\rz('// c') // d\n".toList) := by
  have hmarkers : Settings.standard.markers.Unblank := by decide
  have hcode : codeOnly (scan Settings.standard.markers
      "x /* a\r\n b */ y\r\rz('// c') // d\n".toList) = "x\n      y\n\nz('// c')".toList := by
    decide
  obtain ⟨hscan, _, hanalyze⟩ :=
    scan_codeOnly hmarkers "x /* a\r\n b */ y\r\rz('// c') // d\n".toList
  rw [hcode] at hscan hanalyze
  exact ⟨hmarkers, rfl, hcode, hscan, hanalyze Analyzer.standard rfl⟩

end SourceLine

end ScriptLint
