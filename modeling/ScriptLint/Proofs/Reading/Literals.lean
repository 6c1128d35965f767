import Mathlib
import ScriptLint.Proofs.Reading.Lines
import ScriptLint.Proofs.Reading.Markers

/-!
String literals, as they are found while comments are blanked out and as they are
found by the tokens.

* `Token.Reads.literal_iff`: in a text without comments, the stretches of literals
  are the tokens that are literals.
* `not_standsAt_of_code`: no comment marker stands where code goes on.
* `SourceLine.LiteralsAgree`, `SourceLine.scan_literalsAgree`: in every source line,
  blanking comments and reading tokens find the same literals, tokens cover no
  comment, and comment markers are left in literals only.
-/

namespace ScriptLint

open Text (isBlank)

/-! ### Literals among the tokens -/

namespace Token

/-- The token is a string literal, closed or not. -/
def IsLiteral (token : Token) : Prop :=
  ∃ closed, token.kind = .literal closed

/-- The token stands over a column. -/
def Covers (token : Token) (column : Nat) : Prop :=
  token.column ≤ column ∧ column < token.column + token.lexeme.length

instance (token : Token) (column : Nat) : Decidable (token.Covers column) :=
  inferInstanceAs (Decidable (_ ∧ _))

variable {afterNumber : Bool} {lexeme later text : List Char} {kind : TokenKind}
  {column index : Nat} {tokens : List Token}

lemma stretch_kind_eq_literal_iff {token : Token} :
    token.kind.stretch = .literal ↔ token.IsLiteral := by
  rw [IsLiteral]
  cases token.kind <;> simp [TokenKind.stretch]

/-- In a text without comments, what is part of a literal is what the tokens that
are literals stand over. The induction is along the text. -/
theorem Reads.literal_iff (h : Reads column afterNumber text tokens) :
    (stretches .absent .code text)[index]? = some .literal ↔
      ∃ token ∈ tokens, token.IsLiteral ∧ token.Covers (column + index) := by
  induction h generalizing index with
  | done => simp
  | @blank column _ c text tokens blank rest ih =>
      rw [stretches_absent_cons, Zone.next_code_of_not_quote (not_quote_of_blank blank)]
      cases index with
      | zero =>
          refine iff_of_false (by simp [Zone.stretch]) ?_
          rintro ⟨token, htoken, _, hcovers⟩
          have hle := rest.le_column htoken
          have hcolumn := hcovers.1
          omega
      | succ index =>
          rw [List.getElem?_cons_succ, ih, Nat.add_assoc, Nat.add_comm 1 index]
  | @token column _ kind lexeme later tokens spells rest ih =>
      by_cases hlt : index < lexeme.length
      · rw [spells.getElem?_stretches hlt, Option.some.injEq]
        constructor
        · intro hkind
          refine ⟨_, List.mem_cons_self, stretch_kind_eq_literal_iff.mp hkind, ?_⟩
          exact ⟨Nat.le_add_right _ _, Nat.add_lt_add_left hlt _⟩
        · rintro ⟨token, htoken, hliteral, hcovers⟩
          rcases List.mem_cons.mp htoken with rfl | htoken
          · exact stretch_kind_eq_literal_iff.mpr hliteral
          · have hle := rest.le_column htoken
            have hcolumn := hcovers.1
            omega
      · have hindex : column + lexeme.length + (index - lexeme.length) = column + index := by
          omega
        rw [spells.stretches_eq, List.getElem?_append_right (by simpa using hlt),
          List.length_replicate, ih, hindex]
        constructor
        · rintro ⟨token, htoken, h⟩
          exact ⟨token, List.mem_cons_of_mem _ htoken, h⟩
        · rintro ⟨token, htoken, hliteral, hcovers⟩
          rcases List.mem_cons.mp htoken with rfl | htoken
          · have hcolumn : column + index < column + lexeme.length := hcovers.2
            omega
          · exact ⟨token, htoken, hliteral, hcovers⟩

end Token

/-! ### Sifted lines -/

section Sifted

variable {markers : Markers} {zone next : Zone} {c d shown : Char} {text : List Char}
  {index : Nat}

/-- Where code goes on, no line comment and no block comment begins. -/
theorem not_standsAt_of_code (h : (stretches markers zone text)[index]? = some .code) :
    Markers.standsAt markers.line (text.drop index) = false ∧
      Markers.standsAt markers.blockOpen (text.drop index) = false := by
  induction text generalizing zone index with
  | nil => simp [stretches] at h
  | cons d rest ih =>
      cases hstep : zone.step markers d rest with
      | none =>
          rw [stretches, hstep] at h
          have hmem := List.mem_of_getElem? h
          simp at hmem
      | some pair =>
          obtain ⟨shown, next⟩ := pair
          rw [stretches, hstep] at h
          cases index with
          | succ index =>
              rw [List.getElem?_cons_succ] at h
              exact ih h
          | zero =>
              have hcode : zone.stretch next = .code := by simpa using h
              cases zone with
              | code =>
                  rw [Zone.step] at hstep
                  split_ifs at hstep with hline hopen
                  · obtain ⟨_, rfl⟩ := Prod.mk.inj (Option.some.inj hstep)
                    rw [Zone.stretch_code_afterMarker] at hcode
                    cases hcode
                  all_goals exact ⟨Bool.eq_false_iff.mpr hline, Bool.eq_false_iff.mpr hopen⟩
              | _ => cases hcode

/-- A marker without blanks that stands in a sifted line stands in the line. -/
lemma standsAt_of_shown {marker : List Char} (hmarker : ∀ c ∈ marker, isBlank c = false)
    (h : Markers.standsAt marker ((siftFrom markers zone text).shown.drop index) = true) :
    Markers.standsAt marker (text.drop index) = true := by
  obtain ⟨hne, hpre⟩ := Markers.standsAt_iff.mp h
  refine Markers.standsAt_iff.mpr ⟨hne, ?_⟩
  rw [List.prefix_iff_getElem?] at hpre ⊢
  intro offset hoffset
  have hget := hpre offset hoffset
  rw [List.getElem?_drop] at hget ⊢
  refine getElem?_of_shown ?_ hget
  intro hspace
  have hblank := hmarker _ (List.getElem_mem hoffset)
  rw [hspace, Text.isBlank_space] at hblank
  cases hblank

end Sifted

/-! ### Source lines -/

namespace SourceLine

/-- Blanking comments and reading tokens agree on the string literals of a source line
that lies in this physical line, which starts inside a block comment or outside. -/
structure LiteralsAgree (markers : Markers) (inComment : Bool) (physical : List Char)
    (line : SourceLine) : Prop where
  /-- What is taken for a literal while comments are blanked out is what the tokens
  that are literals stand over. -/
  literal_iff : ∀ index < line.text.length,
    (stretches markers (Zone.ofStart inComment) physical)[line.indent + index]? =
        some .literal ↔
      ∃ token ∈ Token.ofLine line, token.IsLiteral ∧ token.Covers (line.column index)
  /-- No token stands over a character of a comment. -/
  not_comment : ∀ token ∈ Token.ofLine line, ∀ column, token.Covers column →
    (stretches markers (Zone.ofStart inComment) physical)[column - 1]? ≠ some .comment
  /-- Each token has the characters of the physical line at its column. -/
  lexeme_stands : ∀ token ∈ Token.ofLine line,
    (physical.drop (token.column - 1)).take token.lexeme.length = token.lexeme
  /-- A marker without blanks that begins a comment is left in literals only. -/
  marker_in_literal : ∀ marker, marker = markers.line ∨ marker = markers.blockOpen →
    (∀ c ∈ marker, isBlank c = false) →
      ∀ index < line.text.length, Markers.standsAt marker (line.text.drop index) = true →
        ∃ token ∈ Token.ofLine line, token.IsLiteral ∧ token.Covers (line.column index)

namespace LiesIn

variable {markers : Markers} {inComment : Bool} {physical : List Char} {line : SourceLine}
  {token : Token} {index : Nat}

/-- What a character of a source line is part of in its physical line, and what has
become of it. -/
lemma exists_part (h : line.LiesIn markers inComment physical)
    (hindex : index < line.text.length) :
    ∃ part,
      (stretches markers (Zone.ofStart inComment) physical)[line.indent + index]? = some part ∧
      (part = .literal ↔
        ∃ token ∈ Token.ofLine line, token.IsLiteral ∧ token.Covers (line.column index)) ∧
      ((part = .comment ∧ line.text[index]? = some ' ') ∨
        (part ≠ .comment ∧ physical[line.indent + index]? = line.text[index]?)) := by
  obtain ⟨leading, trailing, hshown, hlength, hleading, _⟩ := h.exists_shown
  have hsift : siftFrom markers (Zone.ofStart inComment) physical =
      sift markers inComment physical := rfl
  have htext : line.text[index]? = some line.text[index] := List.getElem?_eq_getElem hindex
  have hget : (siftFrom markers (Zone.ofStart inComment) physical).shown[line.indent + index]? =
      some line.text[index] := by
    rw [hsift, hshown, ← hlength, List.getElem?_append_right (Nat.le_add_right _ _),
      Nat.add_sub_cancel_left, List.getElem?_append_left hindex, htext]
  -- the blanks before the text are code, and so is what is read behind them
  obtain ⟨hblanks, hafter⟩ :=
    code_of_not_quote fun c hc => not_quote_of_blank (hleading c hc)
  have hplain : (stretches .absent .code
      (siftFrom markers (Zone.ofStart inComment) physical).shown)[line.indent + index]? =
        (stretches .absent .code line.text)[index]? := by
    rw [hsift, hshown, stretches_append, hafter, stretches_append, hblanks, ← hlength,
      List.getElem?_append_right (by simp), List.length_replicate, Nat.add_sub_cancel_left,
      List.getElem?_append_left (by simpa using hindex)]
  have hliteral : (stretches .absent .code line.text)[index]? = some .literal ↔
      ∃ token ∈ Token.ofLine line, token.IsLiteral ∧ token.Covers (line.column index) := by
    have hcolumn : line.column index = line.column 0 + index := by
      rw [SourceLine.column, SourceLine.column]
      omega
    rw [hcolumn]
    exact (Token.reads_read (line.column 0) false line.text).literal_iff
  rw [← hliteral, ← hplain, htext]
  have hcases := shown_cases hget
  rw [Zone.uncommented_ofStart] at hcases
  rcases hcases with ⟨hcomment, hspace, hcode⟩ | ⟨part, hpart, hstretch, hphysical, hsame⟩
  · exact ⟨.comment, hcomment, by simp [hcode], .inl ⟨rfl, by rw [hspace]⟩⟩
  · exact ⟨part, hstretch, by rw [hsame, Option.some.injEq], .inr ⟨hpart, hphysical⟩⟩

/-- Where a token of a source line stands in its text. -/
lemma exists_offset (htoken : token ∈ Token.ofLine line) :
    ∃ start, token.column = line.column start ∧
      start + token.lexeme.length ≤ line.text.length ∧
      (∀ offset (hlt : offset < token.lexeme.length),
        line.text[start + offset]? = some token.lexeme[offset]) ∧
      ((∀ closed, token.kind ≠ .literal closed) → ∀ c ∈ token.lexeme, isBlank c = false) := by
  obtain ⟨before, later, after, htext, hcolumn, hspells⟩ :=
    (Token.reads_read (line.column 0) false line.text).exists_split htoken
  refine ⟨before.length, ?_, ?_, fun offset hlt => ?_, fun hkind c hc =>
    (hspells.not_blank_not_quote hkind c hc).1⟩
  · rw [hcolumn, SourceLine.column, SourceLine.column]
    omega
  · rw [htext, List.length_append, List.length_append]
    omega
  · rw [htext, List.append_assoc, List.getElem?_append_right (Nat.le_add_right _ _),
      Nat.add_sub_cancel_left, List.getElem?_append_left hlt, List.getElem?_eq_getElem hlt]

/-- The characters of a token are not part of a comment, and stand in the physical
line. -/
lemma token_char (h : line.LiesIn markers inComment physical)
    (htoken : token ∈ Token.ofLine line) {offset : Nat} (hlt : offset < token.lexeme.length) :
    (stretches markers (Zone.ofStart inComment) physical)[token.column - 1 + offset]? ≠
        some .comment ∧
      physical[token.column - 1 + offset]? = some token.lexeme[offset] := by
  obtain ⟨start, hcolumn, hle, hget, hblank⟩ := exists_offset htoken
  have hplace : token.column - 1 + offset = line.indent + (start + offset) := by
    rw [hcolumn, SourceLine.column]
    omega
  have hindex : start + offset < line.text.length := by omega
  obtain ⟨part, hpart, hliteral, hcases⟩ := h.exists_part hindex
  rw [hplace, hpart, ← hget offset hlt]
  rcases hcases with ⟨rfl, hspace⟩ | ⟨hne, hphysical⟩
  · -- a space within a token is one of a literal
    exfalso
    by_cases hkind : ∀ closed, token.kind ≠ .literal closed
    · have hchar : token.lexeme[offset] = ' ' := by
        rw [hget offset hlt] at hspace
        exact Option.some.inj hspace
      have hnot := hblank hkind _ (List.getElem_mem hlt)
      rw [hchar, Text.isBlank_space] at hnot
      cases hnot
    · obtain ⟨closed, hkind⟩ := not_forall_not.mp hkind
      refine Stretch.noConfusion (hliteral.mpr ⟨token, htoken, ⟨closed, hkind⟩, ?_⟩)
      rw [Token.Covers, hcolumn, SourceLine.column, SourceLine.column]
      omega
  · exact ⟨fun heq => hne (Option.some.inj heq), hphysical⟩

/-- A marker that stands in a source line stands in what sifting its physical line shows. -/
lemma standsAt_shown (h : line.LiesIn markers inComment physical) {marker : List Char}
    (hindex : index < line.text.length)
    (hstands : Markers.standsAt marker (line.text.drop index) = true) :
    Markers.standsAt marker
      ((siftFrom markers (Zone.ofStart inComment) physical).shown.drop
        (line.indent + index)) = true := by
  obtain ⟨leading, trailing, hshown, hlength, _, _⟩ := h.exists_shown
  have hsift : (siftFrom markers (Zone.ofStart inComment) physical).shown =
      leading ++ (line.text ++ trailing) := hshown
  rw [hsift, ← hlength, List.drop_length_add_append,
    List.drop_append_of_le_length (Nat.le_of_lt hindex)]
  obtain ⟨hne, hpre⟩ := Markers.standsAt_iff.mp hstands
  exact Markers.standsAt_iff.mpr ⟨hne, hpre.trans (List.prefix_append _ _)⟩

/-- Blanking comments and reading tokens agree on the literals of a source line. -/
theorem literalsAgree (h : line.LiesIn markers inComment physical) :
    line.LiteralsAgree markers inComment physical where
  literal_iff := by
    intro index hindex
    obtain ⟨part, hpart, hliteral, _⟩ := h.exists_part hindex
    rw [hpart, Option.some.injEq, hliteral]
  not_comment := by
    intro token htoken column hcovers
    obtain ⟨hle, hlt⟩ := hcovers
    obtain ⟨start, hcolumn, _⟩ := exists_offset htoken
    have hplace : column - 1 = token.column - 1 + (column - token.column) := by
      rw [hcolumn, SourceLine.column] at hle ⊢
      omega
    rw [hplace]
    exact (h.token_char htoken (by omega)).1
  lexeme_stands := by
    intro token htoken
    refine (List.prefix_iff_eq_take.mp (List.prefix_iff_getElem?.mpr fun offset hlt => ?_)).symm
    rw [List.getElem?_drop]
    exact (h.token_char htoken hlt).2
  marker_in_literal := by
    intro marker hmarker hblank index hindex hstands
    obtain ⟨part, hpart, hliteral, hcases⟩ := h.exists_part hindex
    refine hliteral.mp ?_
    cases part with
    | literal => rfl
    | code =>
        -- the marker would have been found
        have hnot := not_standsAt_of_code hpart
        have hline := standsAt_of_shown hblank (h.standsAt_shown hindex hstands)
        rcases hmarker with rfl | rfl
        · rw [hnot.1] at hline
          cases hline
        · rw [hnot.2] at hline
          cases hline
    | comment =>
        -- a marker does not begin with a blank
        obtain ⟨hne, later, hlater⟩ := Markers.standsAt_iff.mp hstands
        obtain ⟨first, more, rfl⟩ := List.exists_cons_of_ne_nil hne
        have hfirst : line.text[index]? = some first := by
          rw [← List.head?_drop, ← hlater]
          rfl
        rcases hcases with ⟨_, hspace⟩ | ⟨hnot, _⟩
        · obtain rfl := Option.some.inj (hfirst.symm.trans hspace)
          have hnot := hblank ' ' List.mem_cons_self
          rw [Text.isBlank_space] at hnot
          cases hnot
        · exact absurd rfl hnot

end LiesIn

/-- They agree in the physical line of the script that the number of the source line
tells. -/
def LiteralsAgreeIn (markers : Markers) (source : List Char) (line : SourceLine) : Prop :=
  ∃ physical, 1 ≤ line.number ∧
    (Text.physicalLines (Text.unifyEndings source))[line.number - 1]? = some physical ∧
      line.LiteralsAgree markers
        (commentOpen markers false
          ((Text.physicalLines (Text.unifyEndings source)).take (line.number - 1))) physical

/-- **Literals**: in every source line of a script, blanking comments and reading
tokens agree on the string literals. -/
theorem scan_literalsAgree {markers : Markers} {source : List Char} {line : SourceLine}
    (h : line ∈ scan markers source) : line.LiteralsAgreeIn markers source := by
  obtain ⟨index, physical, hphysical, hnumber, hlies⟩ := exists_liesIn_of_scanFrom h
  have hindex : line.number - 1 = index := by omega
  rw [LiteralsAgreeIn, hindex]
  exact ⟨physical, by omega, hphysical, hlies.literalsAgree⟩

/-- A marker in a literal, and a comment behind it. -/
theorem literalsAgree_of_marker_in_literal :
    (⟨1, "x = \"// b\"".toList, 0⟩ : SourceLine) ∈
        scan Settings.standard.markers "x = \"// b\" /* c".toList ∧
      (⟨1, "x = \"// b\"".toList, 0⟩ : SourceLine).LiteralsAgreeIn Settings.standard.markers
        "x = \"// b\" /* c".toList := by
  have hline : (⟨1, "x = \"// b\"".toList, 0⟩ : SourceLine) ∈
      scan Settings.standard.markers "x = \"// b\" /* c".toList := by decide
  exact ⟨hline, scan_literalsAgree hline⟩

end SourceLine

end ScriptLint
