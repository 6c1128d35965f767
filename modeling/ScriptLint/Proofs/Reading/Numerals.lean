import Mathlib
import ScriptLint.Proofs.Reading.Extents

/-!
The numbers of a source line.

* `IsNumeral`: digits, digits with a fraction behind them, or a fraction alone;
  `IsDoubleFraction`: two fractions in a row.
* `isNumeral_or_isDoubleFraction_iff`: what the two have in common is a digit, or a point
  before a digit, then digits, and then a fraction or nothing.
* `Token.numeral_split`, `Token.le_numeralLength`: this is as far as a number goes.
* `number_isNumeral_iff`: a number of a source line is a numeral unless two fractions in a row
  stand where it begins, and no digit follows it.
* `Token.read_of_isNumeral`: numerals and double fractions alone are one number.
-/

namespace ScriptLint

open Text (isBlank)

/-! ### Numerals -/

/-- One or more digits. -/
structure IsDigits (text : List Char) : Prop where
  ne_nil : text ≠ []
  isDigit : ∀ c ∈ text, c.isDigit = true

/-- A point and digits. -/
def IsFraction (text : List Char) : Prop :=
  ∃ digits, IsDigits digits ∧ text = '.' :: digits

/-- The forms of a numeral. -/
inductive IsNumeral : List Char → Prop where
  | whole {text : List Char} (digits : IsDigits text) : IsNumeral text
  | fraction {text : List Char} (fraction : IsFraction text) : IsNumeral text
  | mixed {text more : List Char} (digits : IsDigits text) (fraction : IsFraction more) :
      IsNumeral (text ++ more)

/-- Two fractions in a row. -/
def IsDoubleFraction (text : List Char) : Prop :=
  ∃ first second, IsFraction first ∧ IsFraction second ∧ text = first ++ second

/-- The text begins with two fractions in a row. -/
def StartsDoubleFraction (text : List Char) : Prop :=
  ∃ double, IsDoubleFraction double ∧ double <+: text

section Numerals

variable {c : Char} {text digits more : List Char}

lemma IsDigits.count_point (h : IsDigits text) : text.count '.' = 0 :=
  List.count_eq_zero.mpr fun hmem => by simpa using h.isDigit _ hmem

lemma IsFraction.count_point (h : IsFraction text) : text.count '.' = 1 := by
  obtain ⟨digits, hdigits, rfl⟩ := h
  rw [List.count_cons_self, hdigits.count_point]

/-- A numeral has one point at most. -/
lemma IsNumeral.count_point_le (h : IsNumeral text) : text.count '.' ≤ 1 := by
  cases h with
  | whole hdigits => simp [hdigits.count_point]
  | fraction hfraction => exact hfraction.count_point.le
  | mixed hdigits hfraction =>
      rw [List.count_append, hdigits.count_point, hfraction.count_point]

lemma IsDoubleFraction.count_point (h : IsDoubleFraction text) : text.count '.' = 2 := by
  obtain ⟨first, second, hfirst, hsecond, rfl⟩ := h
  rw [List.count_append, hfirst.count_point, hsecond.count_point]

/-- What begins with a double fraction has two points, so it is no numeral. -/
lemma StartsDoubleFraction.not_isNumeral (h : StartsDoubleFraction text) : ¬ IsNumeral text := by
  obtain ⟨double, hdouble, hpre⟩ := h
  intro hnumeral
  have hcount := hpre.sublist.count_le '.'
  have hle := hnumeral.count_point_le
  rw [hdouble.count_point] at hcount
  omega

/-- A numeral or a double fraction is a digit, or a point before a digit, then digits, and
then a fraction or nothing. -/
theorem isNumeral_or_isDoubleFraction_iff :
    IsNumeral text ∨ IsDoubleFraction text ↔
      ∃ (c : Char) (digits more : List Char), text = c :: (digits ++ more) ∧
        (c.isDigit = true ∨ (c = '.' ∧ digits ≠ [])) ∧ (∀ d ∈ digits, d.isDigit = true) ∧
          (more = [] ∨ IsFraction more) := by
  constructor
  · rintro ((hdigits | ⟨digits, hdigits, rfl⟩ | ⟨hdigits, hfraction⟩) |
      ⟨first, second, ⟨digits, hdigits, rfl⟩, hsecond, rfl⟩)
    · obtain ⟨c, rest, rfl⟩ := List.exists_cons_of_ne_nil hdigits.ne_nil
      obtain ⟨hc, hrest⟩ := List.forall_mem_cons.mp hdigits.isDigit
      exact ⟨c, rest, [], by rw [List.append_nil], .inl hc, hrest, .inl rfl⟩
    · exact ⟨'.', digits, [], by rw [List.append_nil], .inr ⟨rfl, hdigits.ne_nil⟩,
        hdigits.isDigit, .inl rfl⟩
    · obtain ⟨c, rest, rfl⟩ := List.exists_cons_of_ne_nil hdigits.ne_nil
      obtain ⟨hc, hrest⟩ := List.forall_mem_cons.mp hdigits.isDigit
      exact ⟨c, rest, _, rfl, .inl hc, hrest, .inr hfraction⟩
    · exact ⟨'.', digits, second, rfl, .inr ⟨rfl, hdigits.ne_nil⟩, hdigits.isDigit,
        .inr hsecond⟩
  · rintro ⟨c, digits, more, rfl, hc | ⟨rfl, hne⟩, hdigits, rfl | hmore⟩
    · rw [List.append_nil]
      exact .inl (.whole ⟨List.cons_ne_nil _ _, List.forall_mem_cons.mpr ⟨hc, hdigits⟩⟩)
    · exact .inl (.mixed ⟨List.cons_ne_nil c digits, List.forall_mem_cons.mpr ⟨hc, hdigits⟩⟩ hmore)
    · rw [List.append_nil]
      exact .inl (.fraction ⟨digits, ⟨hne, hdigits⟩, rfl⟩)
    · exact .inr ⟨'.' :: digits, more, ⟨digits, ⟨hne, hdigits⟩, rfl⟩, hmore, rfl⟩

end Numerals

/-! ### The extent of a number -/

namespace Token

variable {column : ℕ} {c : Char} {text rest digits more : List Char} {token : Token}

/-- No digit follows the digits that a text starts with. -/
lemma not_digit_of_getElem?_digitsLength (h : text[digitsLength text]? = some c) :
    c.isDigit = false := by
  induction text with
  | nil => cases h
  | cons d rest ih =>
      rw [digitsLength, List.takeWhile_cons] at h
      split_ifs at h with hd
      · exact ih h
      · obtain rfl := Option.some.inj h
        exact Bool.eq_false_iff.mpr hd

/-- A fraction goes on to a character that is no digit, if none stands in front. -/
lemma fraction_split (hhead : ∀ c, text.head? = some c → c.isDigit = false) :
    (text.take (fractionLength text) = [] ∨ IsFraction (text.take (fractionLength text))) ∧
      ∀ c, text[fractionLength text]? = some c → c.isDigit = false := by
  rw [fractionLength.eq_def]
  split
  · rename_i rest
    split_ifs with hnone
    · exact ⟨.inl rfl, fun c hget => hhead c hget⟩
    · refine ⟨.inr ⟨rest.takeWhile Char.isDigit, ⟨?_, ?_⟩, ?_⟩, ?_⟩
      · exact fun hnil => hnone (congrArg List.length hnil)
      · exact fun c hc => List.mem_takeWhile_imp hc
      · rw [List.take_succ_cons, digitsLength, take_takeWhile_length]
      · exact fun c hget => not_digit_of_getElem?_digitsLength hget
  · exact ⟨.inl rfl, fun c hget => hhead c (by rwa [List.head?_eq_getElem?])⟩

/-- A numeral goes on with the digits in front and then with a fraction or nothing, to a
character that is no digit. -/
lemma numeral_split (text : List Char) :
    (∃ more, text.take (numeralLength text) = text.takeWhile Char.isDigit ++ more ∧
      (more = [] ∨ IsFraction more)) ∧
      ∀ c, text[numeralLength text]? = some c → c.isDigit = false := by
  have hhead : ∀ c, (text.drop (digitsLength text)).head? = some c → c.isDigit = false := by
    intro c hget
    rw [List.head?_drop] at hget
    exact not_digit_of_getElem?_digitsLength hget
  obtain ⟨hmore, hend⟩ := fraction_split hhead
  refine ⟨⟨_, ?_, hmore⟩, fun c hget => hend c ?_⟩
  · rw [numeralLength, List.take_add, digitsLength, take_takeWhile_length]
  · rwa [List.getElem?_drop]

/-- A fraction is taken as a whole. -/
lemma fractionLength_of_isFraction (h : IsFraction more) : fractionLength more = more.length := by
  obtain ⟨digits, hdigits, rfl⟩ := h
  have hlength : digitsLength digits = digits.length := by
    rw [digitsLength, List.takeWhile_eq_self_iff.mpr hdigits.isDigit]
  have hne : digits.length ≠ 0 := fun hnil => hdigits.ne_nil (List.length_eq_zero_iff.mp hnil)
  rw [fractionLength, hlength, if_neg hne, List.length_cons]

lemma digitsLength_append_fraction (hdigits : ∀ d ∈ digits, d.isDigit = true)
    (hmore : more = [] ∨ IsFraction more) : digitsLength (digits ++ more) = digits.length := by
  rw [digitsLength, List.takeWhile_append_of_pos hdigits]
  rcases hmore with rfl | ⟨_, _, rfl⟩ <;> simp

/-- Digits and a fraction behind them are taken as a whole. -/
lemma numeralLength_eq_length (hdigits : ∀ d ∈ digits, d.isDigit = true)
    (hmore : more = [] ∨ IsFraction more) :
    numeralLength (digits ++ more) = (digits ++ more).length := by
  rw [numeralLength, digitsLength_append_fraction hdigits hmore, List.drop_left,
    List.length_append]
  rcases hmore with rfl | hfraction
  · rfl
  · rw [fractionLength_of_isFraction hfraction]

/-- A numeral goes on at least as far as digits and a fraction behind them. -/
lemma le_numeralLength (hdigits : ∀ d ∈ digits, d.isDigit = true) (hmore : IsFraction more)
    (h : digits ++ more <+: text) : (digits ++ more).length ≤ numeralLength text := by
  obtain ⟨later, rfl⟩ := h
  obtain ⟨fraction, hfraction, rfl⟩ := hmore
  have hlength : digitsLength (digits ++ ('.' :: (fraction ++ later))) = digits.length := by
    rw [digitsLength, List.takeWhile_append_of_pos hdigits]
    simp
  have hle : fraction.length ≤ digitsLength (fraction ++ later) := by
    rw [digitsLength, List.takeWhile_append_of_pos hfraction.isDigit, List.length_append]
    exact Nat.le_add_right _ _
  have hpos := List.length_pos_of_ne_nil hfraction.ne_nil
  rw [List.append_assoc, List.cons_append, numeralLength, hlength, List.drop_left, fractionLength,
    if_neg (by omega), List.length_append, List.length_cons]
  omega

/-- A number begins with a digit, or with a point before a digit. -/
lemma extent_of_number (h : (extent c rest).1 = .number) :
    (c.isDigit = true ∨ (c = '.' ∧ rest.takeWhile Char.isDigit ≠ [])) ∧
      (extent c rest).2 = numeralLength rest := by
  rw [extent] at h ⊢
  split_ifs at h ⊢ with hnumber hquote hword
  · refine ⟨?_, rfl⟩
    simp only [Bool.or_eq_true, Bool.and_eq_true, beq_iff_eq, bne_iff_ne] at hnumber
    exact hnumber.imp_right fun hpoint =>
      ⟨hpoint.1, fun hnil => hpoint.2 (congrArg List.length hnil)⟩
  · exact absurd h (wordKind_ne _ TokenKind.noConfusion fun _ => TokenKind.noConfusion)
  · split at h
    · cases h
    · split at h <;> cases h

/-- A number is a numeral or a double fraction, and no digit follows it. -/
lemma IsExtent.number (h : token.IsExtent c rest) (hkind : token.kind = .number) :
    (IsNumeral token.lexeme ∨ IsDoubleFraction token.lexeme) ∧
      ∀ d, (c :: rest)[token.lexeme.length]? = some d → d.isDigit = false := by
  obtain ⟨hfirst, hextent⟩ := extent_of_number (h.kind_eq.symm.trans hkind)
  obtain ⟨⟨more, htake, hmore⟩, hend⟩ := numeral_split rest
  have hlexeme : token.lexeme = c :: (rest.takeWhile Char.isDigit ++ more) := by
    rw [h.lexeme_eq, hextent, htake]
  have hlength : token.lexeme.length = numeralLength rest + 1 := by
    rw [h.lexeme_eq, hextent, List.length_cons, List.length_take_of_le (numeral_chars rest).1]
  refine ⟨isNumeral_or_isDoubleFraction_iff.mpr ⟨c, _, more, hlexeme, hfirst, ?_, hmore⟩, ?_⟩
  · exact fun d hd => List.mem_takeWhile_imp hd
  · rw [hlength, List.getElem?_cons_succ]
    exact hend

/-- A number is a numeral unless a double fraction stands where it begins. -/
lemma IsExtent.isNumeral_iff (h : token.IsExtent c rest) (hkind : token.kind = .number) :
    IsNumeral token.lexeme ↔ ¬ StartsDoubleFraction (c :: rest) := by
  have hextent := (extent_of_number (h.kind_eq.symm.trans hkind)).2
  have hpre : token.lexeme <+: c :: rest := by
    rw [h.lexeme_eq, List.cons_prefix_cons]
    exact ⟨rfl, List.take_prefix _ _⟩
  constructor
  · rintro hnumeral ⟨_, ⟨_, second, ⟨digits, hdigits, rfl⟩, hsecond, rfl⟩, hdouble⟩
    -- the double fraction is taken as a whole
    obtain ⟨rfl, hrest⟩ := List.cons_prefix_cons.mp hdouble
    have hle := le_numeralLength hdigits.isDigit hsecond hrest
    have hwhole : '.' :: (digits ++ second) <+: token.lexeme := by
      rw [h.lexeme_eq, hextent, List.cons_prefix_cons]
      exact ⟨rfl, List.prefix_take_iff.mpr ⟨hrest, hle⟩⟩
    have hstarts : StartsDoubleFraction token.lexeme :=
      ⟨_, ⟨_, second, ⟨digits, hdigits, rfl⟩, hsecond, rfl⟩, hwhole⟩
    exact hstarts.not_isNumeral hnumeral
  · intro hnot
    refine (h.number hkind).1.resolve_right fun hdouble => hnot ⟨_, hdouble, hpre⟩

/-- Read alone, numerals and double fractions are one number. -/
lemma read_of_isNumeral (h : IsNumeral text ∨ IsDoubleFraction text) (column : ℕ) :
    read column false text = [⟨.number, text, column⟩] := by
  obtain ⟨c, digits, more, rfl, hfirst, hdigits, hmore⟩ := isNumeral_or_isDoubleFraction_iff.mp h
  have hblank : isBlank c = false :=
    (isPlain_of_numeral (hfirst.imp_right And.left)).not_blank
  have hnumber : (c.isDigit || (c == '.' && digitsLength (digits ++ more) != 0)) = true := by
    rw [digitsLength_append_fraction hdigits hmore]
    rcases hfirst with hc | ⟨rfl, hne⟩
    · simp [hc]
    · simp [hne]
  have hextent : extent c (digits ++ more) = (.number, (digits ++ more).length) := by
    rw [extent, if_pos hnumber, numeralLength_eq_length hdigits hmore]
  have htoken : IsExtent ⟨.number, c :: (digits ++ more), column⟩ c (digits ++ more) :=
    ⟨hblank, by rw [hextent], by rw [hextent, List.take_length]⟩
  exact htoken.read_lexeme column

end Token

/-! ### The numbers of a line -/

/-- **Numbers**: a number of a source line is a numeral or a double fraction. It is a numeral,
with one point at most, exactly where its text does not begin with two fractions in a row. No
digit follows it. -/
theorem number_isNumeral_iff {line : SourceLine} {token : Token}
    (htoken : token ∈ Token.ofLine line) (hkind : token.kind = .number) :
    (IsNumeral token.lexeme ∨ IsDoubleFraction token.lexeme) ∧
    ((IsNumeral token.lexeme ∧ token.lexeme.count '.' ≤ 1) ↔
      ¬ StartsDoubleFraction (line.text.drop (token.column - line.indent - 1))) ∧
    ∀ c, line.text[token.column - line.indent - 1 + token.lexeme.length]? = some c →
      c.isDigit = false := by
  obtain ⟨before, c, rest, htext, hcolumn, hextent | htail⟩ := Token.exists_start_ofLine htoken
  · have hoffset : token.column - line.indent - 1 = before.length := by
      rw [hcolumn, SourceLine.column]
      omega
    obtain ⟨hspelled, hend⟩ := hextent.number hkind
    rw [htext, hoffset, List.drop_left, ← hextent.isNumeral_iff hkind]
    refine ⟨hspelled, and_iff_left_of_imp IsNumeral.count_point_le, fun d hget => hend d ?_⟩
    rwa [List.getElem?_append_right (Nat.le_add_right _ _), Nat.add_sub_cancel_left] at hget
  · exact absurd hkind htail.kind_ne_number

/-- Behind a numeral with a fraction, a point begins another one. -/
theorem number_isNumeral_of_version :
    (⟨.number, "1.2".toList, 3⟩ : Token) ∈ Token.ofLine ⟨1, "1.2.3x".toList, 2⟩ ∧
      (IsNumeral "1.2".toList ∨ IsDoubleFraction "1.2".toList) ∧
      ((IsNumeral "1.2".toList ∧ "1.2".toList.count '.' ≤ 1) ↔
        ¬ StartsDoubleFraction ("1.2.3x".toList.drop 0)) ∧
      ∀ c, "1.2.3x".toList[0 + 3]? = some c → c.isDigit = false := by
  have htoken : (⟨.number, "1.2".toList, 3⟩ : Token) ∈
      Token.ofLine ⟨1, "1.2.3x".toList, 2⟩ := by decide +kernel
  exact ⟨htoken, number_isNumeral_iff htoken rfl⟩

/-- Two fractions in a row are one number, which is no numeral. -/
theorem not_all_numbers_isNumeral :
    ¬ ∀ line : SourceLine, ∀ token ∈ Token.ofLine line, token.kind = .number →
      IsNumeral token.lexeme := by
  intro hall
  have hdouble : IsDoubleFraction ".1.2".toList :=
    ⟨['.', '1'], ['.', '2'], ⟨['1'], ⟨by simp, by simp⟩, rfl⟩,
      ⟨['2'], ⟨by simp, by simp⟩, rfl⟩, by simp⟩
  have htokens : Token.ofLine ⟨1, ".1.2".toList, 0⟩ = [⟨.number, ".1.2".toList, 1⟩] :=
    Token.read_of_isNumeral (.inr hdouble) 1
  have hstarts : StartsDoubleFraction ".1.2".toList := ⟨_, hdouble, List.prefix_rfl⟩
  refine hstarts.not_isNumeral (hall ⟨1, ".1.2".toList, 0⟩ ⟨.number, ".1.2".toList, 1⟩ ?_ rfl)
  rw [htokens]
  exact List.mem_cons_self

end ScriptLint
