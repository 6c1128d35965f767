import Mathlib
import ScriptLint.Proofs.Reading.Markers
import ScriptLint.Proofs.Reading.Zones

/-!
Comments and string literals of a whole script, read by one automaton.

* `Region`: what the automaton is in, `Region.move`: a step of it, which reads a comment
  marker as a whole.
* `Region.marks`: every character of a text with what it is part of; `Region.behind`: the
  region behind the text.
* `Region.marks_append_lineFeed`: how a line is read does not depend on what follows it.
* `Region.siftFrom_zone`: on one line the automaton shows what sifting the line shows.
* `Region.isBlankCode_marks_iff`: a line without code is one that shows blanks only.
-/

namespace ScriptLint

open Text (isBlank)

/-! ### The automaton over a whole text -/

/-- What a character of a script is part of. -/
inductive Region where
  /-- Outside literals and comments. -/
  | code
  /-- A literal opened by this quote. -/
  | literal (quote : Char)
  /-- A comment that ends with its line. -/
  | lineComment
  /-- A comment that may run over several lines. -/
  | blockComment
deriving DecidableEq, Repr

namespace Region

/-- A step of the automaton. -/
structure Move where
  /-- What the characters read in the step are part of. -/
  part : Region
  /-- How many characters are read behind the first one. -/
  more : Nat
  /-- The region behind these characters. -/
  next : Region

/-- A line feed ends everything but a block comment. -/
def afterLineFeed : Region → Region
  | blockComment => blockComment
  | _ => code

/-- How many characters a backslash protects: the next one of the line. -/
def protectedLength : List Char → Nat
  | [] => 0
  | c :: _ => if c = '\n' then 0 else 1

/-- The step at the character `c` of a line. In code the line comment is tried first,
then the block comment, then the quotes. -/
def moveInLine (markers : Markers) (region : Region) (c : Char) (rest : List Char) : Move :=
  match region with
  | code =>
    if Markers.standsAt markers.line (c :: rest) then
      ⟨lineComment, markers.line.length - 1, lineComment⟩
    else if Markers.standsAt markers.blockOpen (c :: rest) then
      ⟨blockComment, markers.blockOpen.length - 1, blockComment⟩
    else if Zone.isQuote c then
      ⟨literal c, 0, literal c⟩
    else
      ⟨code, 0, code⟩
  | literal quote =>
    if c = '\\' then ⟨literal quote, protectedLength rest, literal quote⟩
    else if c = quote then ⟨literal quote, 0, code⟩
    else ⟨literal quote, 0, literal quote⟩
  | lineComment => ⟨lineComment, 0, lineComment⟩
  | blockComment =>
    if Markers.standsAt markers.blockClose (c :: rest) then
      ⟨blockComment, markers.blockClose.length - 1, code⟩
    else
      ⟨blockComment, 0, blockComment⟩

/-- The step at the character `c` of a text. -/
def move (markers : Markers) (region : Region) (c : Char) (rest : List Char) : Move :=
  if c = '\n' then ⟨region.afterLineFeed, 0, region.afterLineFeed⟩
  else region.moveInLine markers c rest

end Region

/-- A character as the automaton has read it. -/
structure Mark where
  char : Char
  /-- The region in which the automaton came to it. -/
  before : Region
  /-- What it is part of. -/
  part : Region
deriving DecidableEq, Repr

/-- The characters that are read in a step from this region. -/
def Region.Move.read (move : Move) (region : Region) (c : Char) (rest : List Char) :
    List Mark :=
  (c :: rest.take move.more).map (⟨·, region, move.part⟩)

/-- The characters of a text with what they are part of. -/
def Region.marks (markers : Markers) (region : Region) : List Char → List Mark
  | [] => []
  | c :: rest =>
    let move := region.move markers c rest
    move.read region c rest ++ move.next.marks markers (rest.drop move.more)
termination_by text => text.length

/-- The region behind a text. -/
def Region.behind (markers : Markers) (region : Region) : List Char → Region
  | [] => region
  | c :: rest =>
    let move := region.move markers c rest
    move.next.behind markers (rest.drop move.more)
termination_by text => text.length

namespace Mark

/-- The character is part of a comment. -/
def isComment (mark : Mark) : Bool :=
  mark.part == .lineComment || mark.part == .blockComment

/-- The character that is shown: a space for one of a block comment. -/
def display (mark : Mark) : Char :=
  if mark.part = .blockComment then ' ' else mark.char

/-- A line, each character of a block comment a space, cut at a line comment. -/
def shown (line : List Mark) : List Char :=
  (line.takeWhile (·.part != .lineComment)).map display

/-- What is not comment in a line is blank. -/
def isBlankCode (line : List Mark) : Bool :=
  line.all fun mark => mark.isComment || isBlank mark.char

/-- The line begins outside a block comment, and its first character that is not blank
begins a comment marker. -/
def beginsWithComment (markers : Markers) (line : List Mark) : Bool :=
  let start := Text.trimStart (line.map char)
  !line.head?.any (·.before == .blockComment) &&
    (Markers.standsAt markers.line start || Markers.standsAt markers.blockOpen start)

/-- The lines between the line feeds. -/
def lines (text : List Mark) : List (List Mark) :=
  text.splitOnP (·.char == '\n')

end Mark

/-! ### Lines of marks -/

namespace Mark

variable {line later chunk : List Mark} {mark : Mark}

@[simp] lemma shown_nil : shown [] = [] := rfl

/-- Nothing is shown from a line comment on. -/
lemma shown_cons_of_lineComment (h : mark.part = .lineComment) : shown (mark :: line) = [] := by
  simp [shown, h]

/-- What stands before a line comment is shown. -/
lemma shown_append (h : ∀ mark ∈ chunk, mark.part ≠ .lineComment) :
    shown (chunk ++ line) = chunk.map display ++ shown line := by
  have hall : ∀ mark ∈ chunk, (mark.part != .lineComment) = true := by simpa using h
  rw [shown, List.takeWhile_append_of_pos hall, List.map_append, shown]

/-- Marks without a line feed are a single line. -/
lemma lines_eq_singleton (h : ∀ mark ∈ line, mark.char ≠ '\n') : lines line = [line] := by
  rw [lines, List.splitOnP_eq_singleton]
  intro mark hmem
  exact beq_eq_false_iff_ne.mpr (h mark hmem)

/-- A line feed ends the first line. -/
lemma lines_append_lineFeed (hline : ∀ mark ∈ line, mark.char ≠ '\n')
    (hmark : mark.char = '\n') : lines (line ++ mark :: later) = line :: lines later := by
  have hsingle : line.splitOnP (·.char == '\n') = [line] := lines_eq_singleton hline
  rw [lines, List.splitOnP_append_cons _ _ (by simp [hmark]), hsingle, List.singleton_append,
    lines]

end Mark

/-! ### The steps on a line -/

namespace Region

variable {markers : Markers} {region : Region} {c : Char} {rest line later text : List Char}

/-- A step reads characters that are there. -/
lemma move_more_le : (region.move markers c rest).more ≤ rest.length := by
  have hmarker : ∀ {marker : List Char}, Markers.standsAt marker (c :: rest) = true →
      marker.length - 1 ≤ rest.length := by
    intro marker h
    have hle := (Markers.standsAt_iff.mp h).2.length_le
    rw [List.length_cons] at hle
    omega
  have hprotected : protectedLength rest ≤ rest.length := by
    cases rest with
    | nil => rfl
    | cons d later =>
        rw [protectedLength]
        split_ifs <;> simp
  rw [move]
  split_ifs
  · exact Nat.zero_le _
  · cases region with
    | code =>
        rw [moveInLine]
        split_ifs with hline hopen
        · exact hmarker hline
        · exact hmarker hopen
        all_goals exact Nat.zero_le _
    | literal quote =>
        rw [moveInLine]
        split_ifs
        · exact hprotected
        all_goals exact Nat.zero_le _
    | lineComment => exact Nat.zero_le _
    | blockComment =>
        rw [moveInLine]
        split_ifs with hclose
        · exact hmarker hclose
        · exact Nat.zero_le _

/-- A step on a line does not depend on what follows the line. -/
lemma move_append_lineFeed (h : markers.Unblank) :
    region.move markers c (rest ++ '\n' :: later) = region.move markers c rest := by
  have hfeed : isBlank '\n' = true := by decide
  obtain ⟨hline, hopen, hclose⟩ := h.not_mem hfeed
  have hmarker : ∀ {marker : List Char}, '\n' ∉ marker →
      Markers.standsAt marker (c :: (rest ++ '\n' :: later)) =
        Markers.standsAt marker (c :: rest) := by
    intro marker hmem
    rw [← List.cons_append, Markers.standsAt_append_cons hmem]
  have hprotected : protectedLength (rest ++ '\n' :: later) = protectedLength rest := by
    cases rest <;> rfl
  rw [move, move]
  cases region with
  | code => rw [moveInLine, moveInLine, hmarker hline, hmarker hopen]
  | literal quote => rw [moveInLine, moveInLine, hprotected]
  | lineComment => rfl
  | blockComment => rw [moveInLine, moveInLine, hmarker hclose]

/-- Behind a step of a line, the line goes on. -/
lemma lineFeed_not_mem_drop (h : '\n' ∉ c :: rest) (more : Nat) : '\n' ∉ rest.drop more :=
  fun hmem => h (List.mem_cons_of_mem c (List.mem_of_mem_drop hmem))

lemma part_of_mem_read {move : Move} {mark : Mark} (h : mark ∈ move.read region c rest) :
    mark.part = move.part := by
  obtain ⟨d, _, rfl⟩ := List.mem_map.mp h
  rfl

/-- The marks have the characters of the text. -/
@[simp] lemma map_char_marks : (region.marks markers text).map Mark.char = text := by
  fun_induction marks markers region text with
  | case1 => rfl
  | case2 region c rest move ih =>
      rw [List.map_append, ih, Move.read, List.map_map, Function.comp_def, List.map_id',
        List.cons_append, List.take_append_drop]

lemma char_ne_of_mem_marks (h : '\n' ∉ text) :
    ∀ mark ∈ region.marks markers text, mark.char ≠ '\n' := by
  rintro mark hmem heq
  have hchars : (region.marks markers text).map Mark.char = text := map_char_marks
  refine h ?_
  rw [← hchars, ← heq]
  exact List.mem_map_of_mem hmem

/-- A line is read as it is read alone, and what follows it is read in the region behind
its line feed. The induction is on the steps. -/
theorem marks_append_lineFeed (hmarkers : markers.Unblank) (h : '\n' ∉ line) :
    region.marks markers (line ++ '\n' :: later) =
      region.marks markers line ++
        ⟨'\n', region.behind markers line, (region.behind markers line).afterLineFeed⟩ ::
          (region.behind markers line).afterLineFeed.marks markers later := by
  fun_induction marks markers region line with
  | case1 region =>
      rw [List.nil_append, marks, behind, move, if_pos rfl]
      rfl
  | case2 region c rest move ih =>
      have hrest : '\n' ∉ rest.drop move.more := lineFeed_not_mem_drop h _
      have hle : move.more ≤ rest.length := move_more_le
      rw [List.cons_append, marks, move_append_lineFeed hmarkers, behind, Move.read,
        List.take_append_of_le_length hle, List.drop_append_of_le_length hle, ih hrest,
        ← List.append_assoc]
      rfl

/-! ### A line comment -/

/-- A line comment goes on to the end of the line. -/
lemma move_lineComment (hc : c ≠ '\n') :
    lineComment.move markers c rest = ⟨lineComment, 0, lineComment⟩ := by
  rw [move, if_neg hc, moveInLine]

lemma behind_lineComment (h : '\n' ∉ text) : lineComment.behind markers text = lineComment := by
  induction text with
  | nil => rw [behind]
  | cons c rest ih =>
      rw [List.mem_cons, not_or] at h
      rw [behind, move_lineComment (Ne.symm h.1), List.drop_zero]
      exact ih h.2

lemma shown_marks_lineComment (h : '\n' ∉ text) :
    Mark.shown (lineComment.marks markers text) = [] := by
  cases text with
  | nil => rw [marks, Mark.shown_nil]
  | cons c rest =>
      rw [List.mem_cons, not_or] at h
      rw [marks, move_lineComment (Ne.symm h.1), Move.read, List.map_cons, List.cons_append]
      exact Mark.shown_cons_of_lineComment rfl

/-- A step leads into a line comment when it reads a part of one, and only then. -/
lemma next_eq_lineComment_iff :
    (region.move markers c rest).next = lineComment ↔
      (region.move markers c rest).part = lineComment := by
  rw [move]
  split_ifs
  · rfl
  · cases region with
    | lineComment => rfl
    | _ => rw [moveInLine]; split_ifs <;> simp

/-! ### The automaton and the sifted line -/

/-- The zone in which a line is sifted that the automaton comes to in a region. -/
def zone : Region → Zone
  | code => .code
  | literal quote => .literal quote
  | lineComment => .code
  | blockComment => .comment

/-- Sifting blanks the characters of a block marker that are still to come. -/
lemma siftFrom_afterMarker {opening : Bool} {more : Nat} (h : more ≤ text.length) :
    siftFrom markers (Zone.afterMarker opening more) text =
      ⟨List.replicate more ' ' ++
          (siftFrom markers (Zone.afterMarker opening 0) (text.drop more)).shown,
        (siftFrom markers (Zone.afterMarker opening 0) (text.drop more)).opened⟩ := by
  induction more generalizing text with
  | zero => rfl
  | succ more ih =>
      cases text with
      | nil => simp at h
      | cons d rest =>
          have hstep : (Zone.afterMarker opening (more + 1)).step markers d rest =
              some (' ', Zone.afterMarker opening more) := rfl
          rw [siftFrom, hstep, List.drop_succ_cons]
          dsimp only
          rw [ih (Nat.le_of_succ_le_succ h)]
          rfl

/-- A line that comes to a line comment is cut there. -/
lemma siftFrom_of_lineComment (h : '\n' ∉ c :: rest) (hregion : region ≠ lineComment)
    (hpart : (region.move markers c rest).part = lineComment) :
    siftFrom markers region.zone (c :: rest) = ⟨[], false⟩ := by
  have hc : c ≠ '\n' := fun heq => h (heq ▸ List.mem_cons_self)
  rw [move, if_neg hc] at hpart
  cases region with
  | code =>
      rw [moveInLine] at hpart
      split_ifs at hpart with hline
      have hstep : Zone.step markers .code c rest = none := by rw [Zone.step, if_pos hline]
      rw [zone, siftFrom, hstep]
  | lineComment => exact absurd rfl hregion
  | _ =>
      rw [moveInLine] at hpart
      split_ifs at hpart

/-- Sifting a line along a step. -/
def Sifts (markers : Markers) (region : Region) (c : Char) (rest : List Char) (move : Move) :
    Prop :=
  siftFrom markers region.zone (c :: rest) =
    ⟨(move.read region c rest).map Mark.display ++
        (siftFrom markers move.next.zone (rest.drop move.more)).shown,
      (siftFrom markers move.next.zone (rest.drop move.more)).opened⟩

/-- A step that reads a single character. -/
lemma sifts_single {shown : Char} {part next : Region}
    (hstep : region.zone.step markers c rest = some (shown, next.zone))
    (hdisplay : Mark.display ⟨c, region, part⟩ = shown) :
    Sifts markers region c rest ⟨part, 0, next⟩ := by
  rw [Sifts, siftFrom, hstep, Move.read, List.take_zero, List.map_singleton, List.map_singleton,
    hdisplay]
  rfl

/-- A step that reads a block marker. -/
lemma sifts_blockMarker {marker : List Char} {opening : Bool} {next : Region}
    (hstands : Markers.standsAt marker (c :: rest) = true)
    (hstep : region.zone.step markers c rest =
      some (' ', Zone.afterMarker opening (marker.length - 1)))
    (hnext : Zone.afterMarker opening 0 = next.zone) :
    Sifts markers region c rest ⟨blockComment, marker.length - 1, next⟩ := by
  have hle : marker.length - 1 ≤ rest.length := by
    have hle := (Markers.standsAt_iff.mp hstands).2.length_le
    rw [List.length_cons] at hle
    omega
  have hread : ((⟨blockComment, marker.length - 1, next⟩ : Move).read region c rest).map
      Mark.display = ' ' :: List.replicate (marker.length - 1) ' ' := by
    have hdisplay : (Mark.display ∘ fun d => (⟨d, region, blockComment⟩ : Mark)) =
        fun _ => ' ' := rfl
    rw [Move.read, List.map_map, hdisplay, List.map_const', List.length_cons,
      List.length_take, Nat.min_eq_left hle, List.replicate_succ]
  rw [Sifts, siftFrom, hstep, hread]
  dsimp only
  rw [siftFrom_afterMarker hle, hnext]
  rfl

/-- In code, sifting goes along with a step that does not come to a line comment. -/
lemma sifts_code (hpart : (code.moveInLine markers c rest).part ≠ lineComment) :
    Sifts markers code c rest (code.moveInLine markers c rest) := by
  rw [moveInLine] at hpart ⊢
  split_ifs at hpart ⊢ with hline hopen hquote
  · exact absurd rfl hpart
  · have hstep : code.zone.step markers c rest =
        some (' ', Zone.afterMarker true (markers.blockOpen.length - 1)) := by
      rw [zone, Zone.step, if_neg hline, if_pos hopen]
    exact sifts_blockMarker hopen hstep rfl
  · have hstep : code.zone.step markers c rest = some (c, .literal c) := by
      rw [zone, Zone.step, if_neg hline, if_neg hopen, if_pos hquote]
    exact sifts_single hstep rfl
  · have hstep : code.zone.step markers c rest = some (c, .code) := by
      rw [zone, Zone.step, if_neg hline, if_neg hopen, if_neg hquote]
    exact sifts_single hstep rfl

/-- A backslash in a literal takes the next character of the line along. -/
lemma sifts_escape {quote : Char} (h : '\n' ∉ rest)
    (hstep : (literal quote).zone.step markers c rest = some (c, .escape quote)) :
    Sifts markers (literal quote) c rest
      ⟨literal quote, protectedLength rest, literal quote⟩ := by
  cases rest with
  | nil =>
      rw [Sifts, siftFrom, hstep]
      rfl
  | cons d later =>
      have hd : d ≠ '\n' := fun heq => h (heq ▸ List.mem_cons_self)
      have hnext : (Zone.escape quote).step markers d later = some (d, .literal quote) := rfl
      rw [protectedLength, if_neg hd, Sifts, siftFrom, hstep]
      dsimp only
      rw [siftFrom, hnext]
      rfl

/-- In a literal of a line, sifting goes along with each step. -/
lemma sifts_literal (quote : Char) (h : '\n' ∉ rest) :
    Sifts markers (literal quote) c rest ((literal quote).moveInLine markers c rest) := by
  rw [moveInLine]
  split_ifs with hescape hclose
  · have hstep : (literal quote).zone.step markers c rest = some (c, .escape quote) := by
      rw [zone, Zone.step, if_pos hescape]
    exact sifts_escape h hstep
  · have hstep : (literal quote).zone.step markers c rest = some (c, .code) := by
      rw [zone, Zone.step, if_neg hescape, if_pos hclose]
    exact sifts_single hstep rfl
  · have hstep : (literal quote).zone.step markers c rest = some (c, .literal quote) := by
      rw [zone, Zone.step, if_neg hescape, if_neg hclose]
    exact sifts_single hstep rfl

/-- In a block comment, sifting goes along with each step. -/
lemma sifts_blockComment :
    Sifts markers blockComment c rest (blockComment.moveInLine markers c rest) := by
  rw [moveInLine]
  split_ifs with hclose
  · have hstep : blockComment.zone.step markers c rest =
        some (' ', Zone.afterMarker false (markers.blockClose.length - 1)) := by
      rw [zone, Zone.step, if_pos hclose]
    exact sifts_blockMarker hclose hstep rfl
  · have hstep : blockComment.zone.step markers c rest = some (' ', .comment) := by
      rw [zone, Zone.step, if_neg hclose]
    exact sifts_single hstep rfl

/-- Sifting goes along with a step that does not come to a line comment. -/
lemma sifts_move (h : '\n' ∉ c :: rest) (hregion : region ≠ lineComment)
    (hpart : (region.move markers c rest).part ≠ lineComment) :
    Sifts markers region c rest (region.move markers c rest) := by
  obtain ⟨hc, hrest⟩ : c ≠ '\n' ∧ '\n' ∉ rest := by
    rw [List.mem_cons, not_or] at h
    exact ⟨Ne.symm h.1, h.2⟩
  rw [move, if_neg hc] at hpart ⊢
  cases region with
  | code => exact sifts_code hpart
  | literal quote => exact sifts_literal quote hrest
  | lineComment => exact absurd rfl hregion
  | blockComment => exact sifts_blockComment

/-- On one line the automaton shows what sifting the line shows, and both tell whether a
block comment is open behind it. The induction is on the steps. -/
theorem siftFrom_zone (h : '\n' ∉ text) (hregion : region ≠ lineComment) :
    siftFrom markers region.zone text =
      ⟨Mark.shown (region.marks markers text), region.behind markers text == blockComment⟩ := by
  fun_induction marks markers region text with
  | case1 region =>
      rw [siftFrom, behind, Mark.shown_nil]
      cases region <;> rfl
  | case2 region c rest move ih =>
      have hrest : '\n' ∉ rest.drop move.more := lineFeed_not_mem_drop h _
      rw [behind]
      by_cases hpart : move.part = lineComment
      · have hnext : move.next = lineComment := next_eq_lineComment_iff.mpr hpart
        have hbehind : move.next.behind markers (rest.drop move.more) = lineComment := by
          rw [hnext]
          exact behind_lineComment hrest
        rw [siftFrom_of_lineComment h hregion hpart, Move.read, List.map_cons, List.cons_append,
          Mark.shown_cons_of_lineComment hpart, hbehind]
        rfl
      · have hnext : move.next ≠ lineComment := fun heq =>
          hpart (next_eq_lineComment_iff.mp heq)
        have hread : ∀ mark ∈ move.read region c rest, mark.part ≠ lineComment :=
          fun mark hmem => part_of_mem_read hmem ▸ hpart
        have hsift : Sifts markers region c rest move := sifts_move h hregion hpart
        rw [Sifts, ih hrest hnext] at hsift
        rw [Mark.shown_append hread]
        exact hsift

/-- A line without code is one that shows blanks only. The induction is on the steps. -/
theorem isBlankCode_marks_iff (h : '\n' ∉ text) :
    Mark.isBlankCode (region.marks markers text) = true ↔
      ∀ c ∈ Mark.shown (region.marks markers text), isBlank c = true := by
  fun_induction marks markers region text with
  | case1 => simp [Mark.isBlankCode]
  | case2 region c rest move ih =>
      have hrest : '\n' ∉ rest.drop move.more := lineFeed_not_mem_drop h _
      have ih := ih hrest
      rw [Mark.isBlankCode] at ih ⊢
      rw [List.all_append, Bool.and_eq_true, ih]
      by_cases hpart : move.part = lineComment
      · have hnext : move.next = lineComment := next_eq_lineComment_iff.mpr hpart
        have hread : ∀ mark ∈ move.read region c rest,
            (mark.isComment || isBlank mark.char) = true := by
          intro mark hmem
          simp [Mark.isComment, part_of_mem_read hmem, hpart]
        have hshown : Mark.shown (move.read region c rest ++ move.next.marks markers
            (rest.drop move.more)) = [] := by
          rw [Move.read, List.map_cons, List.cons_append]
          exact Mark.shown_cons_of_lineComment hpart
        rw [hshown, hnext, shown_marks_lineComment hrest]
        exact ⟨fun _ => List.forall_mem_nil _, fun h => ⟨List.all_eq_true.mpr hread, h⟩⟩
      · have hread : ∀ mark ∈ move.read region c rest, mark.part ≠ lineComment :=
          fun mark hmem => part_of_mem_read hmem ▸ hpart
        rw [Mark.shown_append hread, List.forall_mem_append]
        refine and_congr_left fun _ => ?_
        rw [List.all_eq_true, List.forall_mem_map]
        refine forall₂_congr fun mark hmem => ?_
        have hline := hread mark hmem
        rw [Mark.isComment, Mark.display]
        split_ifs with hblock
        · simp [hblock, Text.isBlank_space]
        · simp [hblock, hline]

end Region

end ScriptLint
