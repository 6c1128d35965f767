import ScriptLint.Analysis
import ScriptLint.Proofs.Reading.Mapped
import ScriptLint.Proofs.Reading.Tokens
import ScriptLint.Proofs.Text.Case

/-!
Reading a script in small letters.

* `Markers.Unlettered`: no marker holds a letter.
* `SourceLine.scan_fold`: the source lines of a script in small letters are its source lines in
  small letters.
* `Token.folded`, `Token.read_fold`: so are the tokens of a text.
* `TokenLine.ofSource_fold`: so are the tokens of a script.
-/

namespace ScriptLint

open Text

/-- No marker holds a letter. -/
abbrev Markers.Unlettered (markers : Markers) : Prop := markers.Free Char.isAlpha

/-! ### Source lines -/

section Lines

variable {markers : Markers} {c : Char}

lemma isQuote_of_isAlpha (h : c.isAlpha = true) : Zone.isQuote c = false := by
  have hne : ∀ d : Char, d.isAlpha = false → c ≠ d := by
    rintro d hd rfl
    rw [hd] at h
    cases h
  rw [Zone.isQuote, beq_eq_false_iff_ne.mpr (hne '"' (by decide)),
    beq_eq_false_iff_ne.mpr (hne '\'' (by decide))]
  rfl

lemma isQuote_toLower (c : Char) : Zone.isQuote c.toLower = Zone.isQuote c :=
  congr_toLower (fun _ h => isQuote_of_isAlpha h) c

/-- Letters are no blanks, quotes or backslashes. -/
lemma inert_isAlpha : Inert Char.isAlpha :=
  ⟨fun _ => isBlank_of_isAlpha, fun _ => isQuote_of_isAlpha, by decide⟩

namespace SourceLine

/-- The source line in small letters. -/
def folded (line : SourceLine) : SourceLine :=
  { line with text := fold line.text }

/-- The source lines of a script in small letters. -/
theorem scan_fold (hmarkers : markers.Unlettered) (source : List Char) :
    scan markers (fold source) = (scan markers source).map folded :=
  scan_map within_toLower inert_isAlpha hmarkers source

end SourceLine

end Lines

/-! ### Tokens -/

/-- The kind in small letters. Only an invalid character has one. -/
def TokenKind.folded : TokenKind → TokenKind
  | invalid c => invalid c.toLower
  | kind => kind

namespace Token

/-- The token in small letters. -/
def folded (token : Token) : Token :=
  ⟨token.kind.folded, fold token.lexeme, token.column⟩

section Extent

variable {c : Char} {rest : List Char}

lemma ne_of_isAlpha (h : c.isAlpha = true) {d : Char} (hd : d.isAlpha = false) : c ≠ d := by
  rintro rfl
  rw [hd] at h
  cases h

lemma startsIdentifier_of_isAlpha (h : c.isAlpha = true) : startsIdentifier c = true := by
  rw [startsIdentifier, h, Bool.true_or]

lemma isDigit_toLower (c : Char) : c.toLower.isDigit = c.isDigit :=
  congr_toLower (fun _ h => isDigit_of_startsIdentifier (startsIdentifier_of_isAlpha h)) c

lemma startsIdentifier_toLower (c : Char) : startsIdentifier c.toLower = startsIdentifier c :=
  congr_toLower (fun _ => startsIdentifier_of_isAlpha) c

lemma continuesIdentifier_toLower (c : Char) :
    continuesIdentifier c.toLower = continuesIdentifier c :=
  congr_toLower (fun _ h => continuesIdentifier_of_starts (startsIdentifier_of_isAlpha h)) c

lemma ofChar?_toLower (c : Char) : Delimiter.ofChar? c.toLower = Delimiter.ofChar? c := by
  refine congr_toLower (a := none) (fun c h => ?_) c
  cases hchar : Delimiter.ofChar? c with
  | none => rfl
  | some delimiter =>
      refine absurd (Delimiter.char_of_ofChar? hchar).symm (ne_of_isAlpha h ?_)
      cases delimiter <;> decide

lemma identifierLength_fold (text : List Char) :
    identifierLength (fold text) = identifierLength text := by
  rw [identifierLength, fold, List.takeWhile_map, List.length_map, identifierLength]
  congr 2
  exact funext continuesIdentifier_toLower

lemma digitsLength_fold (text : List Char) : digitsLength (fold text) = digitsLength text := by
  rw [digitsLength, fold, List.takeWhile_map, List.length_map, digitsLength]
  congr 2
  exact funext isDigit_toLower

lemma fractionLength_fold (text : List Char) :
    fractionLength (fold text) = fractionLength text := by
  cases text with
  | nil => rfl
  | cons c rest =>
      by_cases hc : c = '.'
      · have hpoint : fold ('.' :: rest) = '.' :: fold rest := rfl
        rw [hc, hpoint, fractionLength, fractionLength, digitsLength_fold]
      · have hlower : c.toLower ≠ '.' := fun heq => hc ((toLower_eq_iff (by decide)).mp heq)
        rw [fold_cons, fractionLength_of_ne hlower, fractionLength_of_ne hc]

lemma numeralLength_fold (text : List Char) : numeralLength (fold text) = numeralLength text := by
  have hdrop : (fold text).drop (digitsLength text) = fold (text.drop (digitsLength text)) :=
    List.map_drop.symm
  rw [numeralLength, digitsLength_fold, hdrop, fractionLength_fold, numeralLength]

lemma literalExtent_fold {quote : Char} (hquote : quote.isAlpha = false) (text : List Char) :
    literalExtent quote (fold text) = literalExtent quote text := by
  fun_induction literalExtent quote text with
  | case1 => rfl
  | case2 => rfl
  | case3 d later more closed hmore ih =>
      have hfold : fold ('\\' :: d :: later) = '\\' :: d.toLower :: fold later := rfl
      rw [hfold, literalExtent, if_pos rfl, ih, hmore]
  | case4 rest hescape =>
      have hsame : quote.toLower = quote := (toLower_eq_iff hquote).mpr rfl
      rw [fold_cons, hsame]
      unfold literalExtent
      rw [if_neg hescape, if_pos rfl]
  | case5 c rest hescape hother more closed hmore ih =>
      have hne : c.toLower ≠ '\\' := fun heq => hescape ((toLower_eq_iff (by decide)).mp heq)
      have hne' : c.toLower ≠ quote := fun heq => hother ((toLower_eq_iff hquote).mp heq)
      rw [fold_cons]
      unfold literalExtent
      rw [if_neg hne, if_neg hne', ih, hmore]

lemma singleOperator?_toLower (c : Char) : singleOperator? c.toLower = singleOperator? c := by
  refine congr_toLower (a := none) (fun c h => ?_) c
  unfold singleOperator?
  split
  case h_15 => rfl
  all_goals cases h

lemma pairOperator?_toLower (c d : Char) :
    pairOperator? c.toLower d.toLower = pairOperator? c d := by
  have hfirst : ∀ e, pairOperator? c.toLower e = pairOperator? c e := fun e =>
    congr_toLower (f := fun c => pairOperator? c e) (a := none)
      (fun c hc => pairOperator?_of_startsIdentifier (.inl (startsIdentifier_of_isAlpha hc))) c
  rw [hfirst]
  exact congr_toLower (a := none)
    (fun d hd => pairOperator?_of_startsIdentifier (.inr (startsIdentifier_of_isAlpha hd))) d

lemma operatorExtent?_fold (c : Char) (rest : List Char) :
    operatorExtent? c.toLower (fold rest) = operatorExtent? c rest := by
  have hpair : (fold rest).head?.bind (pairOperator? c.toLower) =
      rest.head?.bind (pairOperator? c) := by
    cases rest with
    | nil => rfl
    | cons d rest => exact pairOperator?_toLower c d
  rw [operatorExtent?, hpair, singleOperator?_toLower, operatorExtent?]

lemma wordKind_fold (word : List Char) : wordKind (fold word) = wordKind word := by
  rw [wordKind, Keyword.ofWord?, fold_fold, wordKind, Keyword.ofWord?]

lemma cons_take_fold (c : Char) (rest : List Char) (more : ℕ) :
    c.toLower :: (fold rest).take more = fold (c :: rest.take more) := by
  rw [fold_cons, fold, fold, List.map_take]

/-- The extent of a token in small letters. -/
lemma extent_fold (c : Char) (rest : List Char) :
    extent c.toLower (fold rest) = ((extent c rest).1.folded, (extent c rest).2) := by
  have hpoint : (c.toLower == '.') = (c == '.') := by
    rw [Bool.eq_iff_iff, beq_iff_eq, beq_iff_eq, toLower_eq_iff (by decide)]
  rw [extent, extent, isDigit_toLower, hpoint, digitsLength_fold, isQuote_toLower,
    startsIdentifier_toLower, ofChar?_toLower, operatorExtent?_fold, numeralLength_fold,
    identifierLength_fold]
  split_ifs with hnumeral hquote hword
  · rfl
  · have hletter : c.isAlpha = false := by
      refine Bool.eq_false_iff.mpr fun h => ?_
      rw [isQuote_of_isAlpha h] at hquote
      cases hquote
    have hsame : c.toLower = c := (toLower_eq_iff hletter).mpr rfl
    simp only [hsame, literalExtent_fold hletter]
    rfl
  · simp only [cons_take_fold, wordKind_fold]
    rcases wordKind_cases (c :: rest.take (identifierLength rest)) with h | ⟨keyword, h, -⟩ <;>
      rw [h] <;> rfl
  · cases Delimiter.ofChar? c with
    | some delimiter => rfl
    | none =>
        cases operatorExtent? c rest with
        | none => rfl
        | some found => rfl

end Extent

/-- **The tokens** of a text in small letters. -/
theorem read_fold (column : ℕ) (afterNumber : Bool) (text : List Char) :
    read column afterNumber (fold text) = (read column afterNumber text).map folded := by
  fun_induction read column afterNumber text with
  | case1 =>
      rw [List.map_nil]
      exact read.eq_1 _ _
  | case2 column afterNumber c rest hblank ih =>
      rw [fold_cons, read, isBlank_toLower, if_pos hblank, ih]
  | case3 column afterNumber c rest hblank kind more hextent ih =>
      have hlower : (if afterNumber && startsIdentifier c.toLower then
          (TokenKind.invalid c.toLower, identifierLength (fold rest))
        else extent c.toLower (fold rest)) = (kind.folded, more) := by
        rw [startsIdentifier_toLower, identifierLength_fold, extent_fold]
        split_ifs at hextent ⊢
        · obtain ⟨rfl, rfl⟩ := Prod.mk.inj hextent
          rfl
        · rw [hextent]
      have hnumber : (kind.folded == .number) = (kind == .number) := by
        cases kind <;> rfl
      have hdrop : (fold rest).drop more = fold (rest.drop more) := List.map_drop.symm
      rw [fold_cons, read, isBlank_toLower, if_neg hblank]
      simp only [hlower, hnumber, cons_take_fold, hdrop, ih]
      rfl

end Token

/-- The tokens of a line in small letters. -/
def TokenLine.folded (line : TokenLine) : TokenLine :=
  ⟨line.number, line.tokens.map Token.folded⟩

/-- **The tokens** of a script in small letters. -/
theorem TokenLine.ofSource_fold {markers : Markers} (hmarkers : markers.Unlettered)
    (source : List Char) :
    ofSource markers (fold source) = (ofSource markers source).map TokenLine.folded := by
  rw [ofSource, SourceLine.scan_fold hmarkers, ofSource, List.map_map, List.map_map]
  refine List.map_congr_left fun line _ => ?_
  simp only [Function.comp_apply, TokenLine.folded, Token.ofLine, SourceLine.folded,
    SourceLine.column, Token.read_fold]

end ScriptLint
