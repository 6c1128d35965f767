import Mathlib
import ScriptLint.Proofs.Reading.Lines
import ScriptLint.Proofs.Reading.Regions
import ScriptLint.Proofs.Text.Lines

/-!
The source lines of a script, read off one automaton over its whole text.

* `SourceLine.ofMarks?`: the source line of a line of marks; there is none if the line
  has no code, or begins with a comment.
* `SourceLine.ofPhysical_eq`: a physical line is read as its marks tell.
* `SourceLine.scan_eq_filterMap_marks`: the source lines of a script are those of the
  lines of its marks, in order.
-/

namespace ScriptLint

open Text (isBlank)

/-- The region at the start of a line. -/
def Region.ofStart (inComment : Bool) : Region :=
  if inComment then .blockComment else .code

namespace SourceLine

/-- The source line of a line of marks. There is none if what is not comment in it is
blank, or if it begins with a comment. -/
def ofMarks? (markers : Markers) (number : Nat) (line : List Mark) : Option SourceLine :=
  if Mark.isBlankCode line || Mark.beginsWithComment markers line then none
  else some ⟨number, Text.trim (Mark.shown line), Text.leadingBlanks (Mark.shown line)⟩

variable {markers : Markers} {region : Region} {inComment : Bool} {number : Nat}
  {physical text : List Char}

/-! ### Physical lines and sifting -/

/-- Blanks in code are shown, and code goes on behind them. -/
lemma siftFrom_append_blank (hmarkers : markers.Unblank) {blanks : List Char}
    (h : ∀ c ∈ blanks, isBlank c = true) :
    siftFrom markers .code (blanks ++ text) =
      ⟨blanks ++ (siftFrom markers .code text).shown, (siftFrom markers .code text).opened⟩ := by
  induction blanks with
  | nil => rfl
  | cons c rest ih =>
      have hc : isBlank c = true := h c List.mem_cons_self
      obtain ⟨hline, hopen, _⟩ := hmarkers.not_mem hc
      have hstep : Zone.step markers .code c (rest ++ text) = some (c, .code) := by
        rw [Zone.step, Markers.standsAt_cons_of_not_mem hline,
          Markers.standsAt_cons_of_not_mem hopen, not_quote_of_blank hc]
        rfl
      rw [List.cons_append, siftFrom, hstep]
      dsimp only
      rw [ih fun d hd => h d (List.mem_cons_of_mem c hd)]
      rfl

/-- A line of blanks is shown as it is. -/
lemma sift_of_blank (hmarkers : markers.Unblank) (h : ∀ c ∈ physical, isBlank c = true) :
    sift markers false physical = ⟨physical, false⟩ := by
  have hsift : sift markers false physical = siftFrom markers .code (physical ++ []) := by
    rw [List.append_nil]
    rfl
  rw [hsift, siftFrom_append_blank hmarkers h, siftFrom, List.append_nil]
  rfl

/-- No block comment is open behind a line that begins with a line comment. -/
lemma not_opened_of_lineComment (hmarkers : markers.Unblank)
    (h : Markers.standsAt markers.line (Text.trimStart physical) = true) :
    (sift markers false physical).opened = false := by
  obtain ⟨leading, hsplit, hleading⟩ := Text.exists_trimStart_split physical
  have hcut : siftFrom markers .code (Text.trimStart physical) = ⟨[], false⟩ := by
    cases hstart : Text.trimStart physical with
    | nil => rfl
    | cons c rest =>
        have hstep : Zone.step markers .code c rest = none := by
          rw [Zone.step, if_pos (hstart ▸ h)]
        rw [siftFrom, hstep]
  have hsift : sift markers false physical =
      siftFrom markers .code (leading ++ Text.trimStart physical) := by
    rw [← hsplit]
    rfl
  rw [hsift, siftFrom_append_blank hmarkers hleading, hcut]

/-- A physical line is dropped with all its code where it begins with a comment, and is
sifted otherwise. In both cases sifting tells whether a block comment is open behind it. -/
theorem ofPhysical_eq_sift (hmarkers : markers.Unblank) :
    ofPhysical markers number inComment physical =
      (if !inComment && (Markers.standsAt markers.line (Text.trimStart physical) ||
            Markers.standsAt markers.blockOpen (Text.trimStart physical)) then none
        else ofShown? number (sift markers inComment physical).shown,
        (sift markers inComment physical).opened) := by
  rw [ofPhysical, Markers.standsAt_trim hmarkers.line, Markers.standsAt_trim hmarkers.blockOpen]
  cases inComment with
  | true => rfl
  | false =>
      rw [Bool.not_false, Bool.true_and, if_neg Bool.false_ne_true]
      cases hline : Markers.standsAt markers.line (Text.trimStart physical) with
      | true =>
          rw [Bool.or_true, if_pos rfl, Bool.true_or, if_pos rfl,
            not_opened_of_lineComment hmarkers hline]
      | false =>
          rw [Bool.or_false, Bool.false_or]
          by_cases hempty : (Text.trim physical).isEmpty = true
          · -- nothing is shown of a line of blanks
            have hnil : Text.trim physical = [] := List.isEmpty_iff.mp hempty
            rw [if_pos hempty, sift_of_blank hmarkers (Text.trim_eq_nil_iff.mp hnil), ofShown?,
              if_pos hempty, ite_self]
          · rw [if_neg hempty]
            split_ifs <;> rfl

/-! ### Physical lines and marks -/

lemma zone_ofStart : (Region.ofStart inComment).zone = Zone.ofStart inComment := by
  cases inComment <;> rfl

/-- A line that is not empty starts in the region in which it is come to. -/
lemma head?_marks_any (h : text ≠ []) :
    ((region.marks markers text).head?.any (·.before == .blockComment)) =
      (region == .blockComment) := by
  obtain ⟨c, rest, rfl⟩ := List.exists_cons_of_ne_nil h
  rw [Region.marks, Region.Move.read, List.map_cons, List.cons_append, List.head?_cons,
    Option.any_some]

/-- A line begins with a comment where a marker that opens one stands at its first
character that is not blank, and no block comment is open before it. -/
lemma beginsWithComment_marks :
    Mark.beginsWithComment markers ((Region.ofStart inComment).marks markers text) =
      (!inComment && (Markers.standsAt markers.line (Text.trimStart text) ||
        Markers.standsAt markers.blockOpen (Text.trimStart text))) := by
  rw [Mark.beginsWithComment, Region.map_char_marks]
  by_cases hempty : text = []
  · obtain rfl := hempty
    have hnil : ∀ marker, Markers.standsAt marker (Text.trimStart []) = false := by
      intro marker
      cases marker <;> rfl
    simp only [hnil, Bool.or_false, Bool.and_false]
  · rw [head?_marks_any hempty]
    cases inComment <;> rfl

/-- The source line of a line is what it shows, unless it begins with a comment. -/
lemma ofMarks?_marks (h : '\n' ∉ text) :
    ofMarks? markers number (region.marks markers text) =
      if Mark.beginsWithComment markers (region.marks markers text) then none
      else ofShown? number (Mark.shown (region.marks markers text)) := by
  have hblank : Mark.isBlankCode (region.marks markers text) =
      (Text.trim (Mark.shown (region.marks markers text))).isEmpty := by
    rw [Bool.eq_iff_iff, Region.isBlankCode_marks_iff h, List.isEmpty_iff, Text.trim_eq_nil_iff]
  rw [ofMarks?, ofShown?, hblank]
  cases Mark.beginsWithComment markers (region.marks markers text) with
  | true => rw [Bool.or_true, if_pos rfl, if_pos rfl]
  | false => rw [Bool.or_false, if_neg Bool.false_ne_true]

/-- A physical line is read as its marks tell, inside a block comment and outside. -/
theorem ofPhysical_eq_marks (hmarkers : markers.Unblank) (h : '\n' ∉ physical) :
    ofPhysical markers number inComment physical =
      (ofMarks? markers number ((Region.ofStart inComment).marks markers physical),
        (Region.ofStart inComment).behind markers physical == .blockComment) := by
  have hregion : Region.ofStart inComment ≠ .lineComment := by
    cases inComment <;> exact Region.noConfusion
  have hsift : sift markers inComment physical =
      ⟨Mark.shown ((Region.ofStart inComment).marks markers physical),
        (Region.ofStart inComment).behind markers physical == .blockComment⟩ := by
    rw [← Region.siftFrom_zone h hregion, zone_ofStart]
    rfl
  rw [ofPhysical_eq_sift hmarkers, hsift, ofMarks?_marks h, beginsWithComment_marks]

/-! ### All lines -/

lemma afterLineFeed_eq_ofStart :
    region.afterLineFeed = Region.ofStart (region == .blockComment) := by
  cases region <;> rfl

/-- The source lines of a text are those of the lines of its marks. The induction is on
the lines of the text. -/
theorem scanFrom_eq_filterMap_marks (hmarkers : markers.Unblank) (number : Nat)
    (inComment : Bool) (text : List Char) :
    scanFrom markers number inComment (Text.physicalLines text) =
      ((Mark.lines ((Region.ofStart inComment).marks markers text)).zipIdx number).filterMap
        fun line => ofMarks? markers line.2 line.1 := by
  induction text using Text.line_induction generalizing number inComment with
  | single line hline =>
      rw [Text.physicalLines_eq_singleton hline,
        Mark.lines_eq_singleton (Region.char_ne_of_mem_marks hline), scanFrom,
        ofPhysical_eq_marks hmarkers hline, List.zipIdx_singleton, List.filterMap_cons]
      dsimp only
      cases ofMarks? markers number ((Region.ofStart inComment).marks markers line) <;> rfl
  | append line rest hline ih =>
      rw [Text.physicalLines_append_lineFeed hline, scanFrom,
        ofPhysical_eq_marks hmarkers hline, Region.marks_append_lineFeed hmarkers hline,
        Mark.lines_append_lineFeed (Region.char_ne_of_mem_marks hline) rfl]
      dsimp only
      rw [ih, List.zipIdx_cons, List.filterMap_cons, afterLineFeed_eq_ofStart]
      dsimp only
      cases ofMarks? markers number ((Region.ofStart inComment).marks markers line) <;> rfl

/-- **Scanning**: where no marker holds a blank, the source lines of a script are those of
the lines that one automaton finds in its whole text, numbered from one: each with the code
that is left of it, unless none is left or the line begins with a comment. -/
theorem scan_eq_filterMap_marks {markers : Markers} (hmarkers : markers.Unblank)
    (source : List Char) :
    scan markers source =
      ((Mark.lines (Region.code.marks markers (Text.unifyEndings source))).zipIdx 1).filterMap
        fun line => ofMarks? markers line.2 line.1 :=
  scanFrom_eq_filterMap_marks hmarkers 1 false _

/-- A comment over two lines, with code on both. -/
theorem scan_comment_over_lines :
    Settings.standard.markers.Unblank ∧
      scan Settings.standard.markers "a = 1 /* b\r\nc */ d = 2 // e".toList =
        ((Mark.lines (Region.code.marks Settings.standard.markers
          (Text.unifyEndings "a = 1 /* b\r\nc */ d = 2 // e".toList))).zipIdx 1).filterMap
            fun line => ofMarks? Settings.standard.markers line.2 line.1 := by
  have hmarkers : Settings.standard.markers.Unblank := by decide
  exact ⟨hmarkers, scan_eq_filterMap_marks hmarkers _⟩

end SourceLine

end ScriptLint
