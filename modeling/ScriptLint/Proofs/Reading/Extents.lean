import Mathlib
import ScriptLint.Proofs.Reading.Tokens

/-!
Which characters of a text make one token.

* `Token.IsExtent`: the token goes as far as the extent of its first character;
  `Token.IsLetterTail`: letters right behind a numeral, which do not.
* `Token.exists_start`, `Token.exists_start_ofLine`: where each token of a text starts, and
  which of the two it is.
* `Token.extent_take`: how far a token goes is seen from its own characters.
* `Token.IsExtent.read_lexeme`: read alone, these characters are the same token.
-/

namespace ScriptLint.Token

open Text (isBlank)

variable {column : ℕ} {afterNumber : Bool} {c : Char} {text rest : List Char} {token : Token}

/-! ### Where a token starts -/

/-- The token starts with the character `c`, before `rest`, and goes as far as the extent of
this character. -/
structure IsExtent (token : Token) (c : Char) (rest : List Char) : Prop where
  not_blank : isBlank c = false
  kind_eq : token.kind = (extent c rest).1
  lexeme_eq : token.lexeme = c :: rest.take (extent c rest).2

/-- The token is invalid for the letter or underscore that it starts with, and one of the
tokens is a number that ends where it starts. -/
structure IsLetterTail (tokens : List Token) (token : Token) : Prop where
  exists_letter : ∃ c, startsIdentifier c = true ∧ token.kind = .invalid c
  exists_numeral : ∃ numeral ∈ tokens, numeral.kind = .number ∧
    numeral.column + numeral.lexeme.length = token.column

lemma IsLetterTail.kind_ne_number {tokens : List Token} (h : token.IsLetterTail tokens) :
    token.kind ≠ .number := by
  obtain ⟨_, _, hinvalid⟩ := h.exists_letter
  rw [hinvalid]
  exact TokenKind.noConfusion

/-- Each token of a text goes as far as the extent of its first character, except for letters
right behind a numeral. The induction is along the reading. -/
theorem exists_start (h : token ∈ read column afterNumber text) :
    ∃ (before : List Char) (c : Char) (rest : List Char), text = before ++ c :: rest ∧
      token.column = column + before.length ∧
      (token.IsExtent c rest ∨ token.IsLetterTail (read column afterNumber text) ∨
        (afterNumber = true ∧ before = [] ∧
          ∃ c, startsIdentifier c = true ∧ token.kind = .invalid c)) := by
  fun_induction read column afterNumber text with
  | case1 => cases h
  | case2 column afterNumber c rest hblank ih =>
      obtain ⟨before, d, later, rfl, hcolumn, hstart⟩ := ih h
      refine ⟨c :: before, d, later, rfl, ?_, ?_⟩
      · rw [hcolumn, List.length_cons]
        omega
      · rcases hstart with hextent | htail | ⟨hafter, _⟩
        · exact .inl hextent
        · exact .inr (.inl htail)
        · cases hafter
  | case3 column afterNumber c rest hblank kind more hstep ih =>
      rw [Bool.not_eq_true] at hblank
      obtain ⟨hle, hspells⟩ := spells_step hblank hstep
      rcases List.mem_cons.mp h with rfl | hlater
      · refine ⟨[], c, rest, rfl, rfl, ?_⟩
        split_ifs at hstep with hletter
        · obtain ⟨rfl, rfl⟩ := Prod.mk.inj hstep
          rw [Bool.and_eq_true] at hletter
          exact .inr (.inr ⟨hletter.1, rfl, c, hletter.2, rfl⟩)
        · exact .inl ⟨hblank, by rw [hstep], by rw [hstep]⟩
      · obtain ⟨before, d, later, htext, hcolumn, hstart⟩ := ih hlater
        refine ⟨c :: rest.take more ++ before, d, later, ?_, ?_, ?_⟩
        · rw [List.append_assoc, ← htext, List.cons_append, List.take_append_drop]
        · rw [hcolumn, List.length_append, List.length_cons, List.length_take_of_le hle]
          omega
        · rcases hstart with hextent | htail | ⟨hafter, rfl, hletter⟩
          · exact .inl hextent
          · obtain ⟨numeral, hmem, hnumeral⟩ := htail.exists_numeral
            exact .inr (.inl ⟨htail.exists_letter, numeral, List.mem_cons_of_mem _ hmem, hnumeral⟩)
          · -- the token right before it is the numeral
            refine .inr (.inl ⟨hletter, _, List.mem_cons_self, beq_iff_eq.mp hafter, ?_⟩)
            show column + (c :: rest.take more).length = token.column
            rw [hcolumn, List.length_cons, List.length_take_of_le hle, List.length_nil]
            omega

/-- Each token of a source line is the extent of its first character or the letters right
behind a numeral. -/
theorem exists_start_ofLine {line : SourceLine} (h : token ∈ ofLine line) :
    ∃ (before : List Char) (c : Char) (rest : List Char), line.text = before ++ c :: rest ∧
      token.column = line.column before.length ∧
      (token.IsExtent c rest ∨ token.IsLetterTail (ofLine line)) := by
  obtain ⟨before, c, rest, htext, hcolumn, hextent | htail | ⟨hafter, _⟩⟩ := exists_start h
  · exact ⟨before, c, rest, htext, by rw [hcolumn, SourceLine.column, SourceLine.column]; omega,
      .inl hextent⟩
  · exact ⟨before, c, rest, htext, by rw [hcolumn, SourceLine.column, SourceLine.column]; omega,
      .inr htail⟩
  · cases hafter

/-! ### The characters of a token -/

lemma digitsLength_take (text : List Char) (count : ℕ) :
    digitsLength (text.take count) = min count (digitsLength text) := by
  rw [digitsLength, ← List.take_takeWhile, List.length_take, digitsLength]

lemma identifierLength_take (text : List Char) (count : ℕ) :
    identifierLength (text.take count) = min count (identifierLength text) := by
  rw [identifierLength, ← List.take_takeWhile, List.length_take, identifierLength]

lemma fractionLength_take (text : List Char) :
    fractionLength (text.take (fractionLength text)) = fractionLength text := by
  rw [fractionLength.eq_def text]
  split
  · rename_i rest
    split_ifs with hdigits
    · rfl
    · rw [List.take_succ_cons, fractionLength, digitsLength_take, min_self, if_neg hdigits]
  · rfl

lemma numeralLength_take (text : List Char) :
    numeralLength (text.take (numeralLength text)) = numeralLength text := by
  have hdigits : digitsLength (text.take (numeralLength text)) = digitsLength text := by
    rw [digitsLength_take]
    exact min_eq_right (Nat.le_add_right _ _)
  have hfraction : numeralLength text - digitsLength text =
      fractionLength (text.drop (digitsLength text)) := Nat.add_sub_cancel_left _ _
  rw [numeralLength, hdigits, List.drop_take, hfraction, fractionLength_take, numeralLength]

lemma literalExtent_take (quote : Char) (text : List Char) :
    literalExtent quote (text.take (literalExtent quote text).1) = literalExtent quote text := by
  fun_induction literalExtent quote text with
  | case1 => rfl
  | case2 => rfl
  | case3 guarded rest more closed hextent ih =>
      rw [hextent] at ih
      rw [List.take_succ_cons, List.take_succ_cons, literalExtent, if_pos rfl, ih]
  | case4 rest hescape =>
      rw [List.take_succ_cons, List.take_zero, literalExtent.eq_def]
      simp [hescape]
  | case5 c rest hescape hclose more closed hextent ih =>
      rw [hextent] at ih
      rw [List.take_succ_cons, literalExtent.eq_def]
      simp [hescape, hclose, ih]

lemma operatorExtent?_take {operator : Operator} {more : ℕ}
    (h : operatorExtent? c rest = some (operator, more)) :
    operatorExtent? c (rest.take more) = some (operator, more) := by
  rw [operatorExtent?] at h
  split at h
  · rename_i found hpair
    obtain ⟨rfl, rfl⟩ := Prod.mk.inj (Option.some.inj h)
    obtain ⟨d, hd, hsecond⟩ := Option.bind_eq_some_iff.mp hpair
    obtain ⟨later, rfl⟩ := List.head?_eq_some_iff.mp hd
    simp [operatorExtent?, hsecond]
  · obtain ⟨found, hsingle, heq⟩ := Option.map_eq_some_iff.mp h
    obtain ⟨rfl, rfl⟩ := Prod.mk.inj heq
    simp [operatorExtent?, hsingle]

/-- A character that begins no operator before `rest` begins none at the end of a text. -/
lemma operatorExtent?_nil (h : operatorExtent? c rest = none) : operatorExtent? c [] = none := by
  rw [operatorExtent?] at h
  split at h
  · cases h
  · simpa [operatorExtent?] using h

/-- A character that begins no numeral before `rest` begins none where the text is cut. -/
lemma not_number_take (h : ¬(c.isDigit || (c == '.' && digitsLength rest != 0)) = true)
    (count : ℕ) : ¬(c.isDigit || (c == '.' && digitsLength (rest.take count) != 0)) = true := by
  rw [digitsLength_take]
  simp only [Bool.or_eq_true, Bool.and_eq_true, bne_iff_ne, beq_iff_eq, not_or, not_and] at h ⊢
  exact ⟨h.1, fun hpoint hdigits => h.2 hpoint fun hzero => hdigits (by rw [hzero, Nat.min_zero])⟩

/-- How far a token goes is seen from its own characters. -/
theorem extent_take (c : Char) (rest : List Char) :
    extent c (rest.take (extent c rest).2) = extent c rest := by
  rw [extent.eq_def c rest]
  split_ifs with hnumber hquote hword
  · have hdigits : digitsLength (rest.take (numeralLength rest)) = digitsLength rest := by
      rw [digitsLength_take]
      exact min_eq_right (Nat.le_add_right _ _)
    rw [extent, hdigits, if_pos hnumber, numeralLength_take]
  · rw [extent, if_neg (not_number_take hnumber _), if_pos hquote, literalExtent_take]
  · rw [extent, if_neg (not_number_take hnumber _), if_neg hquote, if_pos hword]
    dsimp only
    rw [identifierLength_take, min_self, List.take_take, min_self]
  · rw [extent, if_neg (not_number_take hnumber _), if_neg hquote, if_neg hword]
    cases Delimiter.ofChar? c with
    | some delimiter => rfl
    | none =>
        dsimp only
        cases hoperator : operatorExtent? c rest with
        | some found => rw [operatorExtent?_take hoperator]
        | none => rw [List.take_zero, operatorExtent?_nil hoperator]

/-- Read alone, the characters of an extent are the same token. -/
theorem IsExtent.read_lexeme (h : token.IsExtent c rest) (column : ℕ) :
    read column false token.lexeme = [⟨token.kind, token.lexeme, column⟩] := by
  rw [h.lexeme_eq, read, if_neg (Bool.eq_false_iff.mp h.not_blank), h.kind_eq]
  simp [extent_take, read]

end ScriptLint.Token
