import Mathlib
import ScriptLint.Proofs.Reading.Literals

/-!
The tokens of a source line tile its text.

* `Tiles`: tokens with characters, each spelled by the text at its column, in the order of
  their columns and without overlap, and nothing but blanks between them.
* `Token.Reads.covers_or_blank`: what no token stands over is blank.
* `tiles_ofLine`: the tokens of any source line tile its text.
* `Tiles.exists_first`, `Tiles.exists_last`: where the text begins and ends with characters
  that are not blank, so do its tokens.
* `tiling`: the tiling of every source line, from end to end for the lines of a script.
-/

namespace ScriptLint

open Text (isBlank)

/-! ### Tilings -/

/-- The tokens tile the text of the source line. -/
structure Tiles (line : SourceLine) (tokens : List Token) : Prop where
  lexeme_ne_nil : ∀ token ∈ tokens, token.lexeme ≠ []
  /-- The first character of the text stands in the first column behind the indent. -/
  lexeme_stands : ∀ token ∈ tokens, line.indent + 1 ≤ token.column ∧
    (line.text.drop (token.column - line.indent - 1)).take token.lexeme.length = token.lexeme
  column_lt : tokens.Pairwise fun a b => a.column < b.column
  end_le : tokens.Pairwise fun a b => a.column + a.lexeme.length ≤ b.column
  covers_or_blank : ∀ index (h : index < line.text.length),
    (∃ token ∈ tokens, token.Covers (line.column index)) ∨ isBlank line.text[index] = true

section Tiles

variable {line : SourceLine} {tokens : List Token} {token : Token}

/-- No token reaches over the end of the text. -/
lemma Tiles.end_le_length (h : Tiles line tokens) (hmem : token ∈ tokens) :
    token.column + token.lexeme.length ≤ line.indent + line.text.length + 1 := by
  obtain ⟨hcolumn, hstands⟩ := h.lexeme_stands token hmem
  have hpos := List.length_pos_of_ne_nil (h.lexeme_ne_nil token hmem)
  have hlength := congrArg List.length hstands
  rw [List.length_take, List.length_drop] at hlength
  omega

/-- A token stands over a character that is not blank. -/
lemma Tiles.exists_covers (h : Tiles line tokens) (index : ℕ) {c : Char}
    (hget : line.text[index]? = some c) (hc : isBlank c = false) :
    ∃ token ∈ tokens, token.Covers (line.column index) := by
  obtain ⟨hindex, rfl⟩ := List.getElem?_eq_some_iff.mp hget
  rcases h.covers_or_blank index hindex with hcovers | hblank
  · exact hcovers
  · rw [hc] at hblank
    cases hblank

/-- Where the text does not begin with a blank, its first token stands at its start. -/
theorem Tiles.exists_first (h : Tiles line tokens) {c : Char} {rest : List Char}
    (htext : line.text = c :: rest) (hc : isBlank c = false) :
    ∃ first, tokens.head? = some first ∧ first.column = line.indent + 1 := by
  obtain ⟨token, hmem, hcovers⟩ := h.exists_covers 0 (by rw [htext]; rfl) hc
  obtain ⟨first, later, rfl⟩ := List.exists_cons_of_ne_nil (List.ne_nil_of_mem hmem)
  refine ⟨first, rfl, ?_⟩
  have hle : first.column ≤ token.column := by
    rcases List.mem_cons.mp hmem with rfl | hlater
    · exact le_refl _
    · exact ((List.pairwise_cons.mp h.column_lt).1 token hlater).le
  have hstart := (h.lexeme_stands first List.mem_cons_self).1
  have hcolumn : token.column ≤ line.indent + 0 + 1 := hcovers.1
  omega

/-- Where the text does not end with a blank, its last token stands at its end. -/
theorem Tiles.exists_last (h : Tiles line tokens) {c : Char} {before : List Char}
    (htext : line.text = before ++ [c]) (hc : isBlank c = false) :
    ∃ last, tokens.getLast? = some last ∧
      last.column + last.lexeme.length = line.indent + line.text.length + 1 := by
  obtain ⟨token, hmem, hcovers⟩ := h.exists_covers before.length
    (by rw [htext, List.getElem?_concat_length]) hc
  obtain ⟨early, last, rfl⟩ :=
    (List.eq_nil_or_concat' tokens).resolve_left (List.ne_nil_of_mem hmem)
  have hlast : last ∈ early ++ [last] := List.mem_append_right _ List.mem_cons_self
  refine ⟨last, List.getLast?_concat, ?_⟩
  have hle : token.column + token.lexeme.length ≤ last.column + last.lexeme.length := by
    rcases List.mem_append.mp hmem with hearly | hend
    · have hbefore := (List.pairwise_append.mp h.end_le).2.2 token hearly last List.mem_cons_self
      omega
    · rw [List.mem_singleton.mp hend]
  have hend := h.end_le_length hlast
  have hcolumn : line.indent + before.length + 1 < token.column + token.lexeme.length := hcovers.2
  have hlength : line.text.length = before.length + 1 := by
    rw [htext, List.length_append, List.length_singleton]
  omega

end Tiles

/-! ### The tokens of a source line -/

namespace Token

variable {column : ℕ} {afterNumber : Bool} {text : List Char} {tokens : List Token}

/-- What no token stands over is blank. The induction is along the text. -/
theorem Reads.covers_or_blank (h : Reads column afterNumber text tokens) {index : ℕ} {c : Char}
    (hget : text[index]? = some c) :
    (∃ token ∈ tokens, token.Covers (column + index)) ∨ isBlank c = true := by
  induction h generalizing index with
  | done => cases hget
  | @blank column _ d text tokens blank rest ih =>
      cases index with
      | zero =>
          obtain rfl := Option.some.inj hget
          exact .inr blank
      | succ index =>
          have hlater := ih hget
          rwa [Nat.add_assoc, Nat.add_comm 1 index] at hlater
  | @token column _ kind lexeme later tokens spells rest ih =>
      by_cases hlt : index < lexeme.length
      · exact .inl ⟨_, List.mem_cons_self, Nat.le_add_right _ _, Nat.add_lt_add_left hlt _⟩
      · -- the character stands behind this token
        rw [List.getElem?_append_right (Nat.le_of_not_lt hlt)] at hget
        have hindex : column + lexeme.length + (index - lexeme.length) = column + index := by
          omega
        rcases ih hget with ⟨token, hmem, hcovers⟩ | hblank
        · exact .inl ⟨token, List.mem_cons_of_mem _ hmem, hindex ▸ hcovers⟩
        · exact .inr hblank

end Token

/-- The tokens of a source line tile its text. -/
theorem tiles_ofLine (line : SourceLine) : Tiles line (Token.ofLine line) := by
  have hreads : Token.Reads (line.indent + 1) false line.text (Token.ofLine line) :=
    Token.reads_read (line.column 0) false line.text
  refine ⟨fun token hmem => ?_, fun token hmem => ?_, hreads.pairwise_column,
    hreads.pairwise_end, fun index hindex => ?_⟩
  · obtain ⟨_, _, _, _, _, hspells⟩ := hreads.exists_split hmem
    exact hspells.ne_nil
  · obtain ⟨before, later, _, htext, hcolumn, _⟩ := hreads.exists_split hmem
    have hoffset : token.column - line.indent - 1 = before.length := by omega
    refine ⟨by omega, ?_⟩
    rw [hoffset, htext, List.append_assoc, List.drop_left, List.take_left]
  · have hcolumn : line.column index = line.indent + 1 + index := by
      rw [SourceLine.column]
      omega
    rw [hcolumn]
    exact hreads.covers_or_blank (List.getElem?_eq_getElem hindex)

/-- **Tiling**: the tokens of every source line tile its text, whatever the text is. In a line
that is read from a script there is a token, the first one begins right behind the indent, and
the last one ends with the text. -/
theorem tiling :
    (∀ line : SourceLine, Tiles line (Token.ofLine line)) ∧
    ∀ (markers : Markers) (source : List Char), ∀ line ∈ SourceLine.scan markers source,
      ∃ first last, (Token.ofLine line).head? = some first ∧
        (Token.ofLine line).getLast? = some last ∧ first.column = line.indent + 1 ∧
          last.column + last.lexeme.length = line.indent + line.text.length + 1 := by
  refine ⟨tiles_ofLine, fun markers source line hline => ?_⟩
  have hne := SourceLine.text_ne_nil_of_mem_scanFrom hline
  have htrim := SourceLine.trim_text_of_mem_scanFrom hline
  obtain ⟨c, rest, hfirst⟩ := List.exists_cons_of_ne_nil hne
  obtain ⟨before, d, hlast⟩ := (List.eq_nil_or_concat' line.text).resolve_left hne
  have hc : isBlank c = false := Text.not_blank_of_trim_cons (htrim.trans hfirst)
  have hd : isBlank d = false := Text.not_blank_of_trim_concat (htrim.trans hlast)
  obtain ⟨first, hhead, hstart⟩ := (tiles_ofLine line).exists_first hfirst hc
  obtain ⟨last, hend, hstop⟩ := (tiles_ofLine line).exists_last hlast hd
  exact ⟨first, last, hhead, hend, hstart, hstop⟩

/-- Two tokens without a blank between them, and blanks within a literal. -/
theorem tiling_of_malformed_number :
    (⟨1, "x = 5ab 'c  d".toList, 2⟩ : SourceLine) ∈
        SourceLine.scan Settings.standard.markers "\t x = 5ab 'c  d  ".toList ∧
      Tiles ⟨1, "x = 5ab 'c  d".toList, 2⟩ (Token.ofLine ⟨1, "x = 5ab 'c  d".toList, 2⟩) ∧
      ∃ first last, (Token.ofLine ⟨1, "x = 5ab 'c  d".toList, 2⟩).head? = some first ∧
        (Token.ofLine ⟨1, "x = 5ab 'c  d".toList, 2⟩).getLast? = some last ∧
          first.column = 3 ∧ last.column + last.lexeme.length = 16 := by
  have hline : (⟨1, "x = 5ab 'c  d".toList, 2⟩ : SourceLine) ∈
      SourceLine.scan Settings.standard.markers "\t x = 5ab 'c  d  ".toList := by decide
  exact ⟨hline, tiling.1 _, tiling.2 _ _ _ hline⟩

end ScriptLint
