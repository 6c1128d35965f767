import Mathlib
import ScriptLint.Proofs.Reading.Scanning
import ScriptLint.Proofs.Text.Lines
import ScriptLint.Proofs.Text.Spellings

/-!
Blanks and empty lines in what is read of a script.

* `Token.shifted`, `SourceLine.indented`: tokens and source lines further to the right;
  `SourceLine.ofLine_indented`: the tokens of a source line go along with it.
* `ofPhysical_append_blanks`: blanks before a physical line move its source line.
* `ofPhysical_blank`, `ofPhysical_lineComment`: a line of blanks holds nothing, inside a block
  comment or outside; outside, nor does a line that begins with a line comment.
* `scanFrom_add`: where the count of lines starts later, each line has a greater number.
* `scan_intercalate`: the source lines of a text that is given by its lines.
-/

namespace ScriptLint

open Text (isBlank)

/-! ### Blanks before a text -/

namespace Text

lemma isBlank_of_mem_spaces {count : Nat} {c : Char} (h : c ∈ List.replicate count ' ') :
    isBlank c = true := by
  rw [List.eq_of_mem_replicate h]
  exact isBlank_space

variable {blanks text : List Char} (h : ∀ c ∈ blanks, isBlank c = true)

include h

lemma trimStart_append_blanks : trimStart (blanks ++ text) = trimStart text :=
  List.dropWhile_append_of_pos h

lemma trim_append_blanks : trim (blanks ++ text) = trim text := by
  rw [trim, trimStart_append_blanks h, trim]

lemma leadingBlanks_append_blanks :
    leadingBlanks (blanks ++ text) = blanks.length + leadingBlanks text := by
  rw [leadingBlanks, List.takeWhile_append_of_pos h, List.length_append, leadingBlanks]

end Text

/-! ### Tokens further to the right -/

/-- The token as many columns further to the right. -/
def Token.shifted (count : Nat) (token : Token) : Token :=
  { token with column := token.column + count }

/-- Reading starts further to the right. The induction is along the reading. -/
lemma Token.read_add (column count : Nat) (afterNumber : Bool) (text : List Char) :
    read (column + count) afterNumber text =
      (read column afterNumber text).map (shifted count) := by
  fun_induction read column afterNumber text with
  | case1 => rw [read, List.map_nil]
  | case2 column afterNumber c rest hblank ih =>
      rw [read, if_pos hblank, Nat.add_right_comm, ih]
  | case3 column afterNumber c rest hblank kind more hextent ih =>
      have hsame : (if afterNumber && startsIdentifier c then (.invalid c, identifierLength rest)
          else extent c rest) = (kind, more) := hextent
      have hcolumn : column + count + 1 + more = column + 1 + more + count := by omega
      rw [read, if_neg hblank, hsame]
      dsimp only
      rw [hcolumn, ih, List.map_cons, shifted]

namespace SourceLine

/-- The source line as many columns further to the right. -/
def indented (count : Nat) (line : SourceLine) : SourceLine :=
  { line with indent := line.indent + count }

/-- The tokens of a source line go along. -/
lemma ofLine_indented (count : Nat) (line : SourceLine) :
    Token.ofLine (line.indented count) = (Token.ofLine line).map (Token.shifted count) := by
  have hcolumn : (line.indented count).column 0 = line.column 0 + count := by
    simp only [column, indented]
    omega
  rw [Token.ofLine, hcolumn, Token.read_add, Token.ofLine]
  rfl

end SourceLine

/-! ### Blanks before a physical line -/

section Physical

variable {markers : Markers} (hmarkers : markers.Unblank) {blanks physical : List Char}
  {number : Nat} {inComment : Bool}

include hmarkers

/-- Blanks in a block comment are shown as spaces, and the comment goes on behind them. -/
lemma siftFrom_comment_append_blank (h : ∀ c ∈ blanks, isBlank c = true) :
    siftFrom markers .comment (blanks ++ physical) =
      ⟨List.replicate blanks.length ' ' ++ (siftFrom markers .comment physical).shown,
        (siftFrom markers .comment physical).opened⟩ := by
  induction blanks with
  | nil => rfl
  | cons c rest ih =>
      obtain ⟨_, _, hclose⟩ := hmarkers.not_mem (h c List.mem_cons_self)
      have hstep : Zone.step markers .comment c (rest ++ physical) = some (' ', .comment) := by
        rw [Zone.step, Markers.standsAt_cons_of_not_mem hclose]
        rfl
      rw [List.cons_append, siftFrom, hstep]
      dsimp only
      rw [ih fun d hd => h d (List.mem_cons_of_mem c hd)]
      rfl

/-- Blanks before a physical line are shown as as many blanks. -/
lemma exists_sift_append_blanks (h : ∀ c ∈ blanks, isBlank c = true) (inComment : Bool)
    (physical : List Char) :
    ∃ shown, shown.length = blanks.length ∧ (∀ c ∈ shown, isBlank c = true) ∧
      sift markers inComment (blanks ++ physical) =
        ⟨shown ++ (sift markers inComment physical).shown,
          (sift markers inComment physical).opened⟩ := by
  cases inComment with
  | false => exact ⟨blanks, rfl, h, SourceLine.siftFrom_append_blank hmarkers h⟩
  | true =>
      exact ⟨_, List.length_replicate, fun _ => Text.isBlank_of_mem_spaces,
        siftFrom_comment_append_blank hmarkers h⟩

namespace SourceLine

/-- **Indentation**: blanks before a physical line move its source line to the right. -/
theorem ofPhysical_append_blanks (h : ∀ c ∈ blanks, isBlank c = true) :
    ofPhysical markers number inComment (blanks ++ physical) =
      ((ofPhysical markers number inComment physical).1.map (indented blanks.length),
        (ofPhysical markers number inComment physical).2) := by
  obtain ⟨shown, hlength, hshown, hsift⟩ :=
    exists_sift_append_blanks hmarkers h inComment physical
  have hofShown : ofShown? number (shown ++ (sift markers inComment physical).shown) =
      (ofShown? number (sift markers inComment physical).shown).map (indented blanks.length) := by
    rw [ofShown?, ofShown?, Text.trim_append_blanks hshown,
      Text.leadingBlanks_append_blanks hshown, hlength, Nat.add_comm]
    split_ifs <;> rfl
  rw [ofPhysical_eq_sift hmarkers, ofPhysical_eq_sift hmarkers, hsift,
    Text.trimStart_append_blanks h]
  dsimp only
  rw [hofShown]
  split_ifs <;> rfl

/-- A line of blanks holds nothing, inside a block comment or outside. -/
theorem ofPhysical_blank (h : ∀ c ∈ blanks, isBlank c = true) :
    ofPhysical markers number inComment blanks = (none, inComment) := by
  have hempty : ofPhysical markers number inComment [] = (none, inComment) := by
    cases inComment <;> rfl
  rw [← List.append_nil blanks, ofPhysical_append_blanks hmarkers h, hempty]
  rfl

/-- Outside a block comment, a line that begins with a line comment holds nothing. -/
theorem ofPhysical_lineComment
    (h : Markers.standsAt markers.line (Text.trimStart physical) = true) :
    ofPhysical markers number false physical = (none, false) := by
  rw [ofPhysical_eq_sift hmarkers, not_opened_of_lineComment hmarkers h, h]
  rfl

end SourceLine

end Physical

/-! ### Lines of a text -/

namespace SourceLine

variable {markers : Markers}

/-- Where the count of lines starts later, each source line has a greater number. -/
lemma scanFrom_add (number count : Nat) (inComment : Bool) (physicals : List (List Char)) :
    scanFrom markers (number + count) inComment physicals =
      (scanFrom markers number inComment physicals).map fun line =>
        { line with number := line.number + count } := by
  induction physicals generalizing number inComment with
  | nil => rfl
  | cons physical later ih =>
      have hfirst : (ofPhysical markers (number + count) inComment physical).1 =
          (ofPhysical markers number inComment physical).1.map fun line =>
            { line with number := line.number + count } := by
        simp only [ofPhysical, ofShown?]
        split_ifs <;> rfl
      rw [scanFrom, scanFrom]
      dsimp only
      rw [hfirst, ofPhysical_snd number, Nat.add_right_comm, ih, List.map_append,
        Option.toList_map]

/-- The source lines of a text that is given by its lines. -/
lemma scan_intercalate {lines : List (List Char)} (h : Text.Unbroken lines) :
    scan markers (List.intercalate ['\n'] lines) = scanFrom markers 1 false lines := by
  by_cases hne : lines = []
  · -- the empty text has one empty line
    rw [hne]
    rfl
  · have hfeeds : Text.Unambiguous (fun _ => .lineFeed) lines := fun _ hending => by cases hending
    have hreturn : '\r' ∉ List.intercalate ['\n'] lines := by
      rw [← Text.unifyEndings_joinLines hne h hfeeds]
      exact Text.return_not_mem_unifyEndings _
    rw [scan, Text.unifyEndings_eq_self hreturn, Text.physicalLines_eq_splitOnP]
    exact congrArg _ (List.splitOn_intercalate '\n' (fun line hline => (h line hline).2) hne)

end SourceLine

end ScriptLint
