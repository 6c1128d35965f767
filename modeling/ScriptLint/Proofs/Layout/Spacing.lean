import Mathlib
import ScriptLint.Proofs.Layout.Lines
import ScriptLint.Proofs.Reading.Cuts
import ScriptLint.Proofs.Reading.Extents

/-!
Blanks between the tokens of a line.

* `IsGap`: one or more blanks.
* `Token.read_append_gap`: where code goes on, a gap parts the tokens of a text.
* `Respaced`: a line with other blanks in one gap between its tokens; `Respaced.map_word`:
  it has the same tokens up to their columns.
* `spacing`: the tokens on both sides of a blank are read apart, the blanks between tokens do
  not matter, and the characters of a token are that token alone.
-/

namespace ScriptLint

open Text (isBlank)

/-! ### Gaps -/

/-- One or more blanks. -/
structure IsGap (gap : List Char) : Prop where
  ne_nil : gap ≠ []
  blank : ∀ c ∈ gap, isBlank c = true

namespace Token

variable {column : ℕ} {afterNumber : Bool} {c : Char} {text before gap later : List Char}

/-- The token without its column. -/
def word (token : Token) : TokenKind × List Char :=
  (token.kind, token.lexeme)

lemma map_word_shifted (count : ℕ) (tokens : List Token) :
    (tokens.map (shifted count)).map word = tokens.map word := by
  rw [List.map_map]
  rfl

/-- Blanks before a text move its tokens to the right. -/
lemma read_blanks (h : ∀ c ∈ gap, isBlank c = true) :
    read column false (gap ++ later) = (read column false later).map (shifted gap.length) := by
  rw [← read_add]
  induction gap generalizing column with
  | nil => rfl
  | cons c gap ih =>
      obtain ⟨hc, hgap⟩ := List.forall_mem_cons.mp h
      rw [List.cons_append, read, if_pos hc, ih hgap, List.length_cons, Nat.add_assoc,
        Nat.add_comm 1]

/-- **Gaps**: where code goes on, the tokens before a gap and those behind it are read apart. -/
theorem read_append_gap (hcode : Zone.code.after before = .code) (hgap : IsGap gap) :
    read column afterNumber (before ++ (gap ++ later)) =
      read column afterNumber before ++
        (read column false later).map (shifted (before.length + gap.length)) := by
  obtain ⟨c, more, rfl⟩ := List.exists_cons_of_ne_nil hgap.ne_nil
  have hc : Separates c := .inl (hgap.blank c List.mem_cons_self)
  calc read column afterNumber (before ++ (c :: more ++ later))
      = read column afterNumber before ++
          read (column + before.length) false (c :: more ++ later) := read_append hcode hc
    _ = read column afterNumber before ++
          (read (column + before.length) false later).map (shifted (c :: more).length) := by
        rw [read_blanks hgap.blank]
    _ = read column afterNumber before ++
          (read column false later).map (shifted (before.length + (c :: more).length)) := by
        rw [← read_add, ← read_add, Nat.add_assoc]

end Token

/-! ### Lines with other blanks -/

/-- The lines differ in one gap between the tokens of the first. -/
inductive Respaced : SourceLine → SourceLine → Prop where
  | gap {number indent : ℕ} {before gap other later : List Char} (isGap : IsGap gap)
      (otherIsGap : IsGap other)
      (between : ∀ token ∈ Token.ofLine ⟨number, before ++ (gap ++ later), indent⟩,
        ∀ index < gap.length, ¬ token.Covers (indent + (before.length + index) + 1)) :
      Respaced ⟨number, before ++ (gap ++ later), indent⟩
        ⟨number, before ++ (other ++ later), indent⟩

/-- Such lines have the same tokens up to their columns. -/
lemma Respaced.map_word {line other : SourceLine} (h : Respaced line other) :
    (Token.ofLine other).map Token.word = (Token.ofLine line).map Token.word := by
  obtain @⟨number, indent, before, gap, other, later, hgap, hother, hbetween⟩ := h
  have hcode : Zone.code.after before = .code := by
    obtain ⟨c, more, rfl⟩ := List.exists_cons_of_ne_nil hgap.ne_nil
    have hreads : Token.Reads (indent + 1) false (before ++ c :: (more ++ later))
        (Token.ofLine ⟨number, before ++ (c :: more ++ later), indent⟩) := Token.reads_read _ _ _
    refine hreads.after_eq_code_of_gap rfl fun token hmem => ?_
    have hnot := hbetween token hmem 0 (Nat.succ_pos _)
    rwa [Nat.add_zero, Nat.add_right_comm] at hnot
  have hwords : ∀ {gap : List Char}, IsGap gap →
      (Token.ofLine ⟨number, before ++ (gap ++ later), indent⟩).map Token.word =
        (Token.read (indent + 1) false before).map Token.word ++
          (Token.read (indent + 1) false later).map Token.word := by
    intro gap hgap
    have hsplit : Token.ofLine ⟨number, before ++ (gap ++ later), indent⟩ = _ :=
      Token.read_append_gap hcode hgap
    rw [hsplit, List.map_append, Token.map_word_shifted]
    rfl
  rw [hwords hgap, hwords hother]

/-- **Spacing**: the tokens on both sides of a blank are those of the two texts, unless a
literal is left open before it; other blanks between the tokens of a line leave the kinds and
the characters of its tokens as they are; and the characters of each token, letters right
behind a numeral excepted, are this one token when they stand alone. -/
theorem spacing :
    (∀ (line : SourceLine) (blank : Char) (later : List Char), isBlank blank = true →
      (∀ token ∈ Token.ofLine line, token.kind ≠ .literal false) →
        Token.ofLine { line with text := line.text ++ blank :: later } =
          Token.ofLine line ++
            (Token.ofLine { line with text := later }).map
              (Token.shifted (line.text.length + 1))) ∧
    (∀ line other, Relation.ReflTransGen Respaced line other →
      (Token.ofLine other).map Token.word = (Token.ofLine line).map Token.word) ∧
    ∀ line, ∀ token ∈ Token.ofLine line, ¬ token.IsLetterTail (Token.ofLine line) →
      ∀ number indent, Token.ofLine ⟨number, token.lexeme, indent⟩ =
        [⟨token.kind, token.lexeme, indent + 1⟩] := by
  refine ⟨fun line blank later hblank hclosed => ?_, fun line other hrun => ?_,
    fun line token htoken htail number indent => ?_⟩
  · have hcode := (Token.reads_read (line.column 0) false line.text).after_eq_code hclosed
    exact Token.read_append_gap hcode ⟨List.cons_ne_nil blank [], by simpa using hblank⟩
  · induction hrun with
    | refl => rfl
    | tail _ hstep ih => rw [hstep.map_word, ih]
  · obtain ⟨_, _, _, _, _, hextent | hletters⟩ := Token.exists_start_ofLine htoken
    · exact hextent.read_lexeme (indent + 1)
    · exact absurd hletters htail

/-- A blank behind a protected quote, blanks between numerals, and a numeral before letters. -/
theorem spacing_of_malformed_number :
    (∀ token ∈ Token.ofLine ⟨1, "'it\\'s'".toList, 3⟩, token.kind ≠ .literal false) ∧
      Token.ofLine ⟨1, "'it\\'s'".toList ++ '\t' :: "2.5x".toList, 3⟩ =
        Token.ofLine ⟨1, "'it\\'s'".toList, 3⟩ ++
          (Token.ofLine ⟨1, "2.5x".toList, 3⟩).map (Token.shifted 8) ∧
      Respaced ⟨1, "1".toList ++ (['\t'] ++ ".5".toList), 0⟩
        ⟨1, "1".toList ++ ([' ', ' '] ++ ".5".toList), 0⟩ ∧
      (Token.ofLine ⟨1, "1".toList ++ ([' ', ' '] ++ ".5".toList), 0⟩).map Token.word =
        (Token.ofLine ⟨1, "1".toList ++ (['\t'] ++ ".5".toList), 0⟩).map Token.word ∧
      (⟨.number, "2.5".toList, 4⟩ : Token) ∈ Token.ofLine ⟨1, "2.5x".toList, 3⟩ ∧
      Token.ofLine ⟨7, "2.5".toList, 0⟩ = [⟨.number, "2.5".toList, 1⟩] := by
  have hclosed : ∀ token ∈ Token.ofLine ⟨1, "'it\\'s'".toList, 3⟩,
      token.kind ≠ .literal false := by decide +kernel
  have hrespaced : Respaced ⟨1, "1".toList ++ (['\t'] ++ ".5".toList), 0⟩
      ⟨1, "1".toList ++ ([' ', ' '] ++ ".5".toList), 0⟩ := by
    have htokens : Token.ofLine ⟨1, "1".toList ++ (['\t'] ++ ".5".toList), 0⟩ =
        [⟨.number, "1".toList, 1⟩, ⟨.number, ".5".toList, 3⟩] := by decide +kernel
    have htab : IsGap ['\t'] := ⟨by simp, List.forall_mem_singleton.mpr (by decide)⟩
    have hspaces : IsGap [' ', ' '] := ⟨by simp, by simp [Text.isBlank_space]⟩
    refine .gap htab hspaces ?_
    rw [htokens]
    simp [Token.Covers]
  have htoken : (⟨.number, "2.5".toList, 4⟩ : Token) ∈ Token.ofLine ⟨1, "2.5x".toList, 3⟩ := by
    decide +kernel
  exact ⟨hclosed, spacing.1 ⟨1, "'it\\'s'".toList, 3⟩ '\t' "2.5x".toList (by decide) hclosed,
    hrespaced, spacing.2.1 _ _ (.single hrespaced), htoken,
    spacing.2.2 _ _ htoken (fun htail => htail.kind_ne_number rfl) 7 0⟩

end ScriptLint
