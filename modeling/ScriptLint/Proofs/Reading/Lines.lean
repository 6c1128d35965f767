import Mathlib
import ScriptLint.Analysis
import ScriptLint.Proofs.Reading.Zones
import ScriptLint.Proofs.Text.Trimming

/-!
Source lines and their tokens in the physical lines of a script.

* `commentOpen`: a block comment is open after some physical lines.
* `SourceLine.LiesIn`, `exists_sourceLine`: a source line is the trimmed code of the
  physical line of its number; it is never empty (`text_ne_nil_of_mem_scanFrom`), and the
  numbers increase (`pairwise_scanFrom`).
* `SourceLine.LiesIn.column_bounds`, `SourceLine.LiesIn.lexeme_isPrefix`: a token
  stands in the physical line at its column, and spells what stands there.
* `SourceLine.LiesIn.codeAt_bracket_iff`: the bracket tokens are the brackets in the
  code of the physical line.
-/

namespace ScriptLint

open Text (isBlank)

/-! ### Lines and comments -/

/-- A block comment is open behind these physical lines, given whether one is open
before them. -/
def commentOpen (markers : Markers) : Bool → List (List Char) → Bool
  | inComment, [] => inComment
  | inComment, physical :: later =>
    commentOpen markers (SourceLine.ofPhysical markers 1 inComment physical).2 later

/-- The zone at the start of a line. -/
def Zone.ofStart (inComment : Bool) : Zone :=
  if inComment then .comment else .code

lemma Zone.uncommented_ofStart (inComment : Bool) :
    (Zone.ofStart inComment).uncommented = .code := by
  cases inComment <;> rfl

namespace SourceLine

/-- The source line is what is left of the physical line, which starts inside a
block comment or outside, without comments and without the blanks around. -/
structure LiesIn (markers : Markers) (inComment : Bool) (physical : List Char)
    (line : SourceLine) : Prop where
  text_eq : line.text = Text.trim (sift markers inComment physical).shown
  indent_eq : line.indent = Text.leadingBlanks (sift markers inComment physical).shown

section Scan

variable {markers : Markers} {number : Nat} {inComment : Bool} {physical : List Char}
  {line : SourceLine}

/-- The number of a physical line does not matter for its comments. -/
lemma ofPhysical_snd (other : Nat) :
    (ofPhysical markers number inComment physical).2 =
      (ofPhysical markers other inComment physical).2 := by
  simp only [ofPhysical]
  split_ifs <;> rfl

/-- The source line of a physical line holds code, lies in it and has its number. -/
lemma spec_of_ofPhysical (h : (ofPhysical markers number inComment physical).1 = some line) :
    line.text ≠ [] ∧ line.number = number ∧ line.LiesIn markers inComment physical := by
  have hshown : ofShown? number (sift markers inComment physical).shown = some line := by
    simp only [ofPhysical] at h
    split_ifs at h <;> exact h
  rw [ofShown?] at hshown
  split_ifs at hshown with hempty
  obtain rfl := Option.some.inj hshown
  exact ⟨fun hnil => hempty (List.isEmpty_iff.mpr hnil), rfl, rfl, rfl⟩

/-- The source line of a physical line lies in it and has its number. -/
lemma liesIn_of_ofPhysical
    (h : (ofPhysical markers number inComment physical).1 = some line) :
    line.number = number ∧ line.LiesIn markers inComment physical :=
  (spec_of_ofPhysical h).2

/-- Each source line lies in a physical line, which its number tells. The induction
is on the physical lines, for every start. -/
lemma exists_liesIn_of_scanFrom {physicals : List (List Char)}
    (h : line ∈ scanFrom markers number inComment physicals) :
    ∃ index physical, physicals[index]? = some physical ∧ line.number = number + index ∧
      line.LiesIn markers (commentOpen markers inComment (physicals.take index)) physical := by
  induction physicals generalizing number inComment with
  | nil => cases h
  | cons first later ih =>
      rw [scanFrom, List.mem_append, Option.mem_toList] at h
      rcases h with h | h
      · obtain ⟨hnumber, hlies⟩ := liesIn_of_ofPhysical h
        exact ⟨0, first, rfl, hnumber, hlies⟩
      · obtain ⟨index, physical, hphysical, hnumber, hlies⟩ := ih h
        refine ⟨index + 1, physical, hphysical, by omega, ?_⟩
        rw [List.take_succ_cons, commentOpen, ofPhysical_snd number]
        exact hlies

/-- The number of a source line is that of one of the physical lines. -/
lemma number_of_mem_scanFrom {physicals : List (List Char)}
    (h : line ∈ scanFrom markers number inComment physicals) :
    number ≤ line.number ∧ line.number < number + physicals.length := by
  obtain ⟨index, _, hphysical, hnumber, _⟩ := exists_liesIn_of_scanFrom h
  have hlt := (List.getElem?_eq_some_iff.mp hphysical).1
  omega

/-- The source lines of a script come in the order of their numbers. -/
lemma pairwise_scanFrom (number : Nat) (inComment : Bool) (physicals : List (List Char)) :
    (scanFrom markers number inComment physicals).Pairwise fun a b => a.number < b.number := by
  induction physicals generalizing number inComment with
  | nil => exact .nil
  | cons physical later ih =>
      rw [scanFrom, List.pairwise_append]
      refine ⟨?_, ih _ _, ?_⟩
      · cases (ofPhysical markers number inComment physical).1 with
        | none => exact .nil
        | some line => exact List.pairwise_singleton _ _
      · intro a ha b hb
        obtain ⟨hnumber, _⟩ := liesIn_of_ofPhysical (Option.mem_toList.mp ha)
        obtain ⟨index, _, _, hlater, _⟩ := exists_liesIn_of_scanFrom hb
        omega

/-- Every source line holds code. -/
lemma text_ne_nil_of_mem_scanFrom {physicals : List (List Char)}
    (h : line ∈ scanFrom markers number inComment physicals) : line.text ≠ [] := by
  induction physicals generalizing number inComment with
  | nil => cases h
  | cons first later ih =>
      rw [scanFrom, List.mem_append, Option.mem_toList] at h
      rcases h with h | h
      · exact (spec_of_ofPhysical h).1
      · exact ih h

/-- The code of a source line is trimmed. -/
lemma trim_text_of_mem_scanFrom {physicals : List (List Char)}
    (h : line ∈ scanFrom markers number inComment physicals) :
    Text.trim line.text = line.text := by
  obtain ⟨_, _, _, _, hlies⟩ := exists_liesIn_of_scanFrom h
  rw [hlies.text_eq, Text.trim_trim]

end Scan

/-! ### The tokens of a source line -/

namespace LiesIn

variable {markers : Markers} {inComment : Bool} {physical : List Char} {line : SourceLine}
  {token : Token}

/-- The code of a source line stands in the sifted line behind its indent, with
blanks on both sides. -/
lemma exists_shown (h : line.LiesIn markers inComment physical) :
    ∃ leading trailing : List Char,
      (sift markers inComment physical).shown = leading ++ (line.text ++ trailing) ∧
        leading.length = line.indent ∧ (∀ c ∈ leading, isBlank c = true) ∧
          ∀ c ∈ trailing, isBlank c = true := by
  rw [h.text_eq, h.indent_eq]
  exact Text.exists_trim_split _

/-- The code of a source line is not longer than the physical line. -/
lemma length_text_le (h : line.LiesIn markers inComment physical) :
    line.text.length ≤ physical.length := by
  obtain ⟨leading, trailing, hshown, -⟩ := h.exists_shown
  have hle := length_sift_le markers inComment physical
  rw [hshown, List.length_append, List.length_append] at hle
  omega

/-- A token stands in the sifted line behind as many characters as its column tells. -/
lemma exists_split (h : line.LiesIn markers inComment physical)
    (htoken : token ∈ Token.ofLine line) :
    ∃ (before later : List Char) (after : Bool) (rest : List Char),
      (sift markers inComment physical).shown = before ++ (token.lexeme ++ later) ∧
        token.column = before.length + 1 ∧
          Token.Spells after rest token.kind token.lexeme := by
  obtain ⟨leading, trailing, hshown, hlength, _, _⟩ := h.exists_shown
  obtain ⟨before, later, after, htext, hcolumn, hspells⟩ :=
    (Token.reads_read (line.column 0) false line.text).exists_split htoken
  refine ⟨leading ++ before, later ++ trailing, after, later, ?_, ?_, hspells⟩
  · rw [hshown, htext]
    simp only [List.append_assoc]
  · rw [hcolumn, SourceLine.column, List.length_append, hlength]
    omega

/-- A token stands within its physical line. -/
theorem column_bounds (h : line.LiesIn markers inComment physical)
    (htoken : token ∈ Token.ofLine line) :
    1 ≤ token.column ∧ token.column ≤ physical.length := by
  obtain ⟨before, later, after, rest, hshown, hcolumn, hspells⟩ := h.exists_split htoken
  have hpos := List.length_pos_of_ne_nil hspells.ne_nil
  have hle := length_sift_le markers inComment physical
  rw [hshown, List.length_append, List.length_append] at hle
  omega

/-- Outside literals, the characters of a token are what stands in the physical line
from its column on. None of them is blank, so that sifting has kept them. -/
theorem lexeme_isPrefix (h : line.LiesIn markers inComment physical)
    (htoken : token ∈ Token.ofLine line) (hkind : ∀ closed, token.kind ≠ .literal closed) :
    token.lexeme <+: physical.drop (token.column - 1) := by
  obtain ⟨before, later, after, rest, hshown, hcolumn, hspells⟩ := h.exists_split htoken
  rw [List.prefix_iff_getElem?]
  intro index hindex
  have hget : (sift markers inComment physical).shown[before.length + index]? =
      some token.lexeme[index] := by
    rw [hshown, List.getElem?_append_right (Nat.le_add_right _ _), Nat.add_sub_cancel_left,
      List.getElem?_append_left hindex, List.getElem?_eq_getElem hindex]
  have hspace : token.lexeme[index] ≠ ' ' := by
    intro heq
    have hblank := (hspells.not_blank_not_quote hkind _ (List.getElem_mem hindex)).1
    rw [heq, Text.isBlank_space] at hblank
    cases hblank
  rw [List.getElem?_drop, hcolumn, Nat.add_sub_cancel]
  exact getElem?_of_shown hspace hget

/-- The bracket tokens of a source line are the brackets in the code of its physical
line. -/
theorem codeAt_bracket_iff (h : line.LiesIn markers inComment physical)
    {bracket : Delimiter} (hbracket : bracket.IsBracket) {index : Nat} :
    CodeAt markers (Zone.ofStart inComment) physical index bracket.char ↔
      ∃ token ∈ Token.ofLine line, token.kind = .delimiter bracket ∧
        token.column = index + 1 := by
  have hchar : isBlank bracket.char = false := by
    cases bracket <;> decide
  have hspace : bracket.char ≠ ' ' := by
    cases bracket <;> decide
  have hnot : ∀ {blanks : List Char} {index : Nat}, (∀ c ∈ blanks, isBlank c = true) →
      blanks[index]? ≠ some bracket.char := by
    intro blanks index hblanks heq
    have hblank := hblanks _ (List.mem_of_getElem? heq)
    rw [hchar] at hblank
    cases hblank
  obtain ⟨leading, trailing, hshown, hlength, hleading, htrailing⟩ := h.exists_shown
  have hreads : Token.Reads (line.indent + 1) false line.text (Token.ofLine line) :=
    Token.reads_read (line.column 0) false line.text
  have htext : ∀ index, CodeAt .absent .code (line.text ++ trailing) index bracket.char ↔
      CodeAt .absent .code line.text index bracket.char := by
    intro index
    by_cases hlt : index < line.text.length
    · exact codeAt_append_left hlt
    · refine iff_of_false ?_ ?_
      · rintro ⟨hget, _⟩
        rw [List.getElem?_append_right (Nat.le_of_not_lt hlt)] at hget
        exact hnot htrailing hget
      · rintro ⟨hget, _⟩
        exact hlt (List.getElem?_eq_some_iff.mp hget).1
  have hsift : siftFrom markers (Zone.ofStart inComment) physical =
      sift markers inComment physical := rfl
  rw [codeAt_sift_iff hspace, Zone.uncommented_ofStart, hsift, hshown,
    codeAt_append_of_not_quote fun c hc => not_quote_of_blank (hleading c hc),
    or_iff_right (hnot hleading), htext, hreads.codeAt_bracket_iff hbracket, hlength]
  constructor
  · rintro ⟨hle, token, htoken, hkind, hcolumn⟩
    exact ⟨token, htoken, hkind, by omega⟩
  · rintro ⟨token, htoken, hkind, hcolumn⟩
    have hle := hreads.le_column htoken
    exact ⟨by omega, token, htoken, hkind, by omega⟩

end LiesIn

end SourceLine

/-- Each line of a script as tokens comes from a source line that lies in the
physical line of its number. -/
theorem exists_sourceLine {markers : Markers} {source : List Char} {line : TokenLine}
    (h : line ∈ TokenLine.ofSource markers source) :
    ∃ index physical sourceLine,
      (Text.physicalLines (Text.unifyEndings source))[index]? = some physical ∧
        line.number = index + 1 ∧ line.tokens = Token.ofLine sourceLine ∧
          sourceLine.LiesIn markers
            (commentOpen markers false
              ((Text.physicalLines (Text.unifyEndings source)).take index)) physical := by
  obtain ⟨sourceLine, hmem, rfl⟩ := List.mem_map.mp h
  obtain ⟨index, physical, hphysical, hnumber, hlies⟩ :=
    SourceLine.exists_liesIn_of_scanFrom hmem
  rw [Nat.add_comm] at hnumber
  exact ⟨index, physical, sourceLine, hphysical, hnumber, rfl, hlies⟩

end ScriptLint
