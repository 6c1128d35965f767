import Mathlib
import ScriptLint.Issue
import ScriptLint.Token.Lexing

/-!
How the tokens of a text lie in it.

* `Token.Spells`: the spelling of a token of each kind, given what follows it.
* `Token.Reads`: the tokens cover a text from left to right, with blanks between
  them; `Token.reads_read` says that reading does this.
* `Token.Reads.exists_split`: where a token stands in the text.
* `Token.Reads.pairwise_column`, `Token.Reads.pairwise_end`: the columns increase, and no
  token begins before an earlier one ends.
* `IsPlain`, `Token.Spells.isPlain_or`: outside literals, no character of a token is
  blank or a quote, and brackets are tokens of their own.
-/

namespace ScriptLint

open Text (isBlank)

/-! ### Characters of tokens -/

/-- The character is neither blank nor a quote nor a bracket. -/
structure IsPlain (c : Char) : Prop where
  not_blank : isBlank c = false
  not_quote : Zone.isQuote c = false
  not_bracket : ∀ kind : BracketKind, c ≠ kind.left.char ∧ c ≠ kind.right.char

/-- The delimiter is a bracket whose number is compared. -/
def Delimiter.IsBracket (delimiter : Delimiter) : Prop :=
  ∃ kind : BracketKind, delimiter = kind.left ∨ delimiter = kind.right

/-- The character of a delimiter is that of no other. -/
lemma Delimiter.ofChar?_char (delimiter : Delimiter) :
    ofChar? delimiter.char = some delimiter := by
  cases delimiter <;> decide

lemma Delimiter.char_injective : Function.Injective Delimiter.char := by
  intro a b h
  have hsome : some a = some b := by
    rw [← ofChar?_char a, ← ofChar?_char b, h]
  exact Option.some.inj hsome

instance (c : Char) : Decidable (IsPlain c) :=
  decidable_of_iff (isBlank c = false ∧ Zone.isQuote c = false ∧
      ∀ kind ∈ [BracketKind.round, BracketKind.square],
        c ≠ kind.left.char ∧ c ≠ kind.right.char)
    ⟨fun ⟨hblank, hquote, h⟩ => ⟨hblank, hquote, fun kind => h kind (by cases kind <;> decide)⟩,
      fun h => ⟨h.not_blank, h.not_quote, fun kind _ => h.not_bracket kind⟩⟩

/-- A character is plain if its code point is that of a letter, a digit, the
underscore or the point. -/
lemma isPlain_of_toNat {c : Char}
    (h : c.toNat = 46 ∨ (48 ≤ c.toNat ∧ c.toNat ≤ 57) ∨ (65 ≤ c.toNat ∧ c.toNat ≤ 90) ∨
      c.toNat = 95 ∨ (97 ≤ c.toNat ∧ c.toNat ≤ 122)) : IsPlain c := by
  have hne : ∀ d : Char, d.toNat ∈ [34, 39, 40, 41, 91, 93] → c ≠ d := by
    rintro d hd rfl
    simp only [List.mem_cons, List.not_mem_nil, or_false] at hd
    omega
  refine ⟨?_, ?_, fun kind => ?_⟩
  · simp only [isBlank, Text.blankRanges, List.any_cons, List.any_nil, Bool.or_false,
      Bool.or_eq_false_iff, Bool.and_eq_false_iff, decide_eq_false_iff_not, not_le]
    omega
  · rw [Zone.isQuote, Bool.or_eq_false_iff, beq_eq_false_iff_ne, beq_eq_false_iff_ne]
    exact ⟨hne _ (by decide), hne _ (by decide)⟩
  · cases kind <;> exact ⟨hne _ (by decide), hne _ (by decide)⟩

/-- The characters of identifiers are plain. -/
lemma isPlain_of_continuesIdentifier {c : Char} (h : Token.continuesIdentifier c = true) :
    IsPlain c := by
  rw [Token.continuesIdentifier, Bool.or_eq_true, beq_iff_eq] at h
  refine isPlain_of_toNat ?_
  rcases h with h | rfl
  · simp only [Char.isAlphanum, Char.isAlpha, Char.isUpper, Char.isLower, Char.isDigit,
      Bool.or_eq_true, Bool.and_eq_true, decide_eq_true_eq, UInt32.le_iff_toNat_le,
      ge_iff_le] at h
    change ((65 ≤ c.toNat ∧ c.toNat ≤ 90) ∨ (97 ≤ c.toNat ∧ c.toNat ≤ 122)) ∨
      (48 ≤ c.toNat ∧ c.toNat ≤ 57) at h
    omega
  · decide

/-- What starts an identifier can go on with it. -/
lemma continuesIdentifier_of_starts {c : Char} (h : Token.startsIdentifier c = true) :
    Token.continuesIdentifier c = true := by
  rw [Token.startsIdentifier, Bool.or_eq_true] at h
  rw [Token.continuesIdentifier, Bool.or_eq_true, Char.isAlphanum, Bool.or_eq_true]
  exact h.imp_left .inl

/-- No digit starts an identifier. -/
lemma isDigit_of_startsIdentifier {c : Char} (h : Token.startsIdentifier c = true) :
    c.isDigit = false := by
  rw [Token.startsIdentifier, Bool.or_eq_true, beq_iff_eq] at h
  rcases h with h | rfl
  · simp only [Char.isAlpha, Char.isUpper, Char.isLower, Bool.or_eq_true, Bool.and_eq_true,
      decide_eq_true_eq, UInt32.le_iff_toNat_le, ge_iff_le] at h
    change (65 ≤ c.toNat ∧ c.toNat ≤ 90) ∨ (97 ≤ c.toNat ∧ c.toNat ≤ 122) at h
    refine Bool.eq_false_iff.mpr fun hdigit => ?_
    simp only [Char.isDigit, Bool.and_eq_true, decide_eq_true_eq, UInt32.le_iff_toNat_le,
      ge_iff_le] at hdigit
    change 48 ≤ c.toNat ∧ c.toNat ≤ 57 at hdigit
    omega
  · decide

/-- The characters of numerals are plain. -/
lemma isPlain_of_numeral {c : Char} (h : c.isDigit = true ∨ c = '.') : IsPlain c := by
  rcases h with h | rfl
  · refine isPlain_of_continuesIdentifier ?_
    simp [Token.continuesIdentifier, Char.isAlphanum, h]
  · exact isPlain_of_toNat (.inl rfl)

/-- The character of an operator of one character is plain. -/
lemma isPlain_of_singleOperator? {c : Char} {operator : Operator}
    (h : Token.singleOperator? c = some operator) : IsPlain c := by
  unfold Token.singleOperator? at h
  split at h
  case h_15 => cases h
  all_goals decide

/-- The characters of an operator of two characters are plain. -/
lemma isPlain_of_pairOperator? {c d : Char} {operator : Operator}
    (h : Token.pairOperator? c d = some operator) : IsPlain c ∧ IsPlain d := by
  unfold Token.pairOperator? at h
  split at h
  case h_8 => cases h
  all_goals decide

namespace Token

/-- What starts an identifier is no part of an operator. -/
lemma pairOperator?_of_startsIdentifier {c d : Char}
    (h : startsIdentifier c = true ∨ startsIdentifier d = true) : pairOperator? c d = none := by
  unfold pairOperator?
  split
  case h_8 => rfl
  all_goals rcases h with h | h <;> cases h

/-! ### Spellings -/

/-- How a token of a kind is spelled where `later` follows it. The flag tells that
it stands right after a numeral. -/
inductive Spells (afterNumber : Bool) (later : List Char) : TokenKind → List Char → Prop where
  /-- A keyword or an identifier. -/
  | word {c : Char} {rest : List Char} (after : afterNumber = false)
      (valid : isValidIdentifier (c :: rest) = true) :
      Spells afterNumber later (wordKind (c :: rest)) (c :: rest)
  /-- Letters right after a numeral. -/
  | run {c : Char} {rest : List Char} (after : afterNumber = true)
      (valid : isValidIdentifier (c :: rest) = true) :
      Spells afterNumber later (.invalid c) (c :: rest)
  | number {c : Char} {rest : List Char}
      (chars : ∀ d ∈ c :: rest, d.isDigit = true ∨ d = '.') :
      Spells afterNumber later .number (c :: rest)
  | literal {quote : Char} {body : List Char} {closed : Bool}
      (quotes : Zone.isQuote quote = true)
      (extent : literalExtent quote (body ++ later) = (body.length, closed)) :
      Spells afterNumber later (.literal closed) (quote :: body)
  | delimiter (delimiter : Delimiter) :
      Spells afterNumber later (.delimiter delimiter) [delimiter.char]
  | single {c : Char} {operator : Operator} (single : singleOperator? c = some operator) :
      Spells afterNumber later (.operator operator) [c]
  | pair {c d : Char} {operator : Operator} (pair : pairOperator? c d = some operator) :
      Spells afterNumber later (.operator operator) [c, d]
  /-- A character that belongs to no token. -/
  | unknown {c : Char} (not_blank : isBlank c = false) (not_quote : Zone.isQuote c = false)
      (not_delimiter : Delimiter.ofChar? c = none) :
      Spells afterNumber later (.invalid c) [c]

section Spells

variable {afterNumber : Bool} {later lexeme : List Char} {kind : TokenKind}

/-- A token has characters. -/
lemma Spells.ne_nil (h : Spells afterNumber later kind lexeme) : lexeme ≠ [] := by
  cases h <;> exact List.cons_ne_nil _ _

/-- The characters of a valid identifier. -/
lemma continuesIdentifier_of_valid {word : List Char} (h : isValidIdentifier word = true) :
    ∀ c ∈ word, continuesIdentifier c = true := by
  cases word with
  | nil => cases h
  | cons first rest =>
      rw [isValidIdentifier, Bool.and_eq_true, List.all_eq_true] at h
      intro c hc
      rcases List.mem_cons.mp hc with rfl | hc
      · exact continuesIdentifier_of_starts h.1
      · exact h.2 c hc

/-- They are plain. -/
lemma isPlain_of_isValidIdentifier {word : List Char} (h : isValidIdentifier word = true) :
    ∀ c ∈ word, IsPlain c :=
  fun c hc => isPlain_of_continuesIdentifier (continuesIdentifier_of_valid h c hc)

/-- Outside literals, a token is a delimiter or has plain characters only. -/
lemma Spells.isPlain_or (h : Spells afterNumber later kind lexeme)
    (hkind : ∀ closed, kind ≠ .literal closed) :
    (∀ c ∈ lexeme, IsPlain c) ∨ ∃ delimiter, kind = .delimiter delimiter ∧
      lexeme = [delimiter.char] := by
  cases h with
  | word _ valid => exact .inl (isPlain_of_isValidIdentifier valid)
  | run _ valid => exact .inl (isPlain_of_isValidIdentifier valid)
  | number chars => exact .inl fun c hc => isPlain_of_numeral (chars c hc)
  | literal _ _ => exact absurd rfl (hkind _)
  | delimiter delimiter => exact .inr ⟨delimiter, rfl, rfl⟩
  | single single =>
      refine .inl fun c hc => ?_
      obtain rfl := List.mem_singleton.mp hc
      exact isPlain_of_singleOperator? single
  | pair pair =>
      refine .inl fun c hc => ?_
      obtain ⟨hfirst, hsecond⟩ := isPlain_of_pairOperator? pair
      simp only [List.mem_cons, List.not_mem_nil, or_false] at hc
      rcases hc with rfl | rfl
      · exact hfirst
      · exact hsecond
  | unknown not_blank not_quote not_delimiter =>
      refine .inl fun c hc => ?_
      obtain rfl := List.mem_singleton.mp hc
      refine ⟨not_blank, not_quote, fun kind => ⟨?_, ?_⟩⟩
      · rintro rfl
        rw [Delimiter.ofChar?_char] at not_delimiter
        cases not_delimiter
      · rintro rfl
        rw [Delimiter.ofChar?_char] at not_delimiter
        cases not_delimiter

/-- Outside literals, no character of a token is blank or a quote. -/
lemma Spells.not_blank_not_quote (h : Spells afterNumber later kind lexeme)
    (hkind : ∀ closed, kind ≠ .literal closed) :
    ∀ c ∈ lexeme, isBlank c = false ∧ Zone.isQuote c = false := by
  rcases h.isPlain_or hkind with hplain | ⟨delimiter, rfl, rfl⟩
  · exact fun c hc => ⟨(hplain c hc).not_blank, (hplain c hc).not_quote⟩
  · intro c hc
    obtain rfl := List.mem_singleton.mp hc
    cases delimiter <;> decide

/-- Outside literals, a bracket is a token of its own. -/
lemma Spells.eq_of_bracket (h : Spells afterNumber later kind lexeme)
    (hkind : ∀ closed, kind ≠ .literal closed) {bracket : Delimiter}
    (hbracket : bracket.IsBracket) (hmem : bracket.char ∈ lexeme) :
    kind = .delimiter bracket ∧ lexeme = [bracket.char] := by
  rcases h.isPlain_or hkind with hplain | ⟨delimiter, rfl, rfl⟩
  · obtain ⟨sort, rfl | rfl⟩ := hbracket
    · exact absurd rfl ((hplain _ hmem).not_bracket sort).1
    · exact absurd rfl ((hplain _ hmem).not_bracket sort).2
  · obtain rfl := Delimiter.char_injective (List.mem_singleton.mp hmem)
    exact ⟨rfl, rfl⟩

/-- A word is an identifier or spells a keyword, whatever the case of its letters. -/
lemma wordKind_cases (word : List Char) :
    wordKind word = .identifier ∨ ∃ keyword, wordKind word = .keyword keyword ∧
      Text.sameName word keyword.word.toList = true := by
  rw [wordKind]
  cases hword : Keyword.ofWord? word with
  | none => exact .inl rfl
  | some keyword =>
      rw [Keyword.ofWord?] at hword
      have hfold := List.find?_some hword
      rw [beq_iff_eq] at hfold
      refine .inr ⟨keyword, rfl, ?_⟩
      have hsmall : Text.fold keyword.word.toList = keyword.word.toList := by
        cases keyword <;> decide
      rw [Text.sameName, hsmall, hfold, beq_self_eq_true]

/-- A word is of no other kind. -/
lemma wordKind_ne (word : List Char) (hident : kind ≠ .identifier)
    (hkeyword : ∀ keyword, kind ≠ .keyword keyword) : wordKind word ≠ kind := by
  rcases wordKind_cases word with h | ⟨keyword, h, _⟩
  · rw [h]
    exact hident.symm
  · rw [h]
    exact (hkeyword keyword).symm

/-- The characters of a keyword spell its word. -/
lemma Spells.sameName {keyword : Keyword}
    (h : Spells afterNumber later (.keyword keyword) lexeme) :
    Text.sameName lexeme keyword.word.toList = true := by
  generalize hkind : TokenKind.keyword keyword = kind at h
  cases h with
  | @word c rest _ _ =>
      rcases wordKind_cases (c :: rest) with hident | ⟨found, hfound, hname⟩
      · rw [hident] at hkind
        cases hkind
      · rw [hfound] at hkind
        cases hkind
        exact hname
  | _ => cases hkind

/-- A delimiter has its character only. -/
lemma Spells.eq_char {delimiter : Delimiter}
    (h : Spells afterNumber later (.delimiter delimiter) lexeme) :
    lexeme = [delimiter.char] := by
  generalize hkind : TokenKind.delimiter delimiter = kind at h
  cases h with
  | word _ _ =>
      exact absurd hkind.symm
        (wordKind_ne _ TokenKind.noConfusion fun _ => TokenKind.noConfusion)
  | delimiter _ =>
      cases hkind
      rfl
  | _ => cases hkind

/-- The character of an invalid token is its first one. -/
lemma Spells.head?_invalid {c : Char} (h : Spells afterNumber later (.invalid c) lexeme) :
    lexeme.head? = some c := by
  generalize hkind : TokenKind.invalid c = kind at h
  cases h with
  | word _ _ =>
      exact absurd hkind.symm
        (wordKind_ne _ TokenKind.noConfusion fun _ => TokenKind.noConfusion)
  | run _ _ =>
      cases hkind
      rfl
  | unknown _ _ _ =>
      cases hkind
      rfl
  | _ => cases hkind

end Spells

/-! ### The extent of a token -/

/-- The characters that a text starts with, by their number. -/
lemma take_takeWhile_length (p : Char → Bool) (text : List Char) :
    text.take (text.takeWhile p).length = text.takeWhile p :=
  (List.prefix_iff_eq_take.mp (List.takeWhile_prefix p)).symm

/-- A fraction starts with a point. -/
lemma fractionLength_of_ne {c : Char} {rest : List Char} (h : c ≠ '.') :
    fractionLength (c :: rest) = 0 := by
  rw [fractionLength]
  exact fun _ heq => h (List.cons.inj heq).1

/-- The characters of a fraction. -/
lemma fraction_chars (text : List Char) :
    fractionLength text ≤ text.length ∧
      ∀ d ∈ text.take (fractionLength text), d.isDigit = true ∨ d = '.' := by
  rw [fractionLength.eq_def]
  split
  · split_ifs
    · simp
    · rename_i rest _
      have hle : digitsLength rest ≤ rest.length := (List.takeWhile_sublist _).length_le
      refine ⟨Nat.succ_le_succ hle, fun d hd => ?_⟩
      rw [List.take_succ_cons, digitsLength, take_takeWhile_length] at hd
      rcases List.mem_cons.mp hd with rfl | hd
      · exact .inr rfl
      · exact .inl (List.mem_takeWhile_imp hd)
  · simp

/-- The characters of a numeral behind its first one. -/
lemma numeral_chars (text : List Char) :
    numeralLength text ≤ text.length ∧
      ∀ d ∈ text.take (numeralLength text), d.isDigit = true ∨ d = '.' := by
  obtain ⟨hle, hchars⟩ := fraction_chars (text.drop (digitsLength text))
  have hdigits : digitsLength text ≤ text.length := (List.takeWhile_sublist _).length_le
  rw [List.length_drop] at hle
  refine ⟨by rw [numeralLength]; omega, fun d hd => ?_⟩
  rw [numeralLength, List.take_add, List.mem_append] at hd
  rcases hd with hd | hd
  · rw [digitsLength, take_takeWhile_length] at hd
    exact .inl (List.mem_takeWhile_imp hd)
  · exact hchars d hd

/-- A literal does not go on behind the end of its text. -/
lemma literalExtent_le (quote : Char) (text : List Char) :
    (literalExtent quote text).1 ≤ text.length := by
  fun_induction literalExtent quote text with
  | case1 => simp
  | case2 => simp
  | case3 _ _ more closed hextent ih =>
      rw [hextent] at ih
      exact Nat.add_le_add_right ih 2
  | case4 => simp
  | case5 _ _ _ _ more closed hextent ih =>
      rw [hextent] at ih
      exact Nat.add_le_add_right ih 1

/-- An operator is spelled by one or two characters. -/
lemma spells_operatorExtent? {afterNumber : Bool} {c : Char} {rest : List Char}
    {operator : Operator} {more : Nat} (h : operatorExtent? c rest = some (operator, more)) :
    more ≤ rest.length ∧
      Spells afterNumber (rest.drop more) (.operator operator) (c :: rest.take more) := by
  rw [operatorExtent?] at h
  split at h
  · rename_i found hpair
    obtain ⟨rfl, rfl⟩ := Prod.mk.inj (Option.some.inj h)
    obtain ⟨d, hd, hpair⟩ := Option.bind_eq_some_iff.mp hpair
    cases rest with
    | nil => cases hd
    | cons first rest =>
        obtain rfl := Option.some.inj hd
        exact ⟨by simp, .pair hpair⟩
  · obtain ⟨found, hsingle, heq⟩ := Option.map_eq_some_iff.mp h
    obtain ⟨rfl, rfl⟩ := Prod.mk.inj heq
    exact ⟨Nat.zero_le _, .single hsingle⟩

/-- A word is the longest run of identifier characters. -/
lemma isValidIdentifier_run {c : Char} {rest : List Char} (h : startsIdentifier c = true) :
    isValidIdentifier (c :: rest.take (identifierLength rest)) = true := by
  rw [isValidIdentifier, h, Bool.true_and, List.all_eq_true, identifierLength,
    take_takeWhile_length]
  exact fun d hd => List.mem_takeWhile_imp hd

/-- The extent of a word is the run of identifier characters. -/
lemma extent_word {c : Char} {rest : List Char} (h : startsIdentifier c = true) :
    extent c rest =
      (wordKind (c :: rest.take (identifierLength rest)), identifierLength rest) := by
  have hplain := isPlain_of_continuesIdentifier (continuesIdentifier_of_starts h)
  have hpoint : (c == '.') = false := by
    refine beq_eq_false_iff_ne.mpr ?_
    rintro rfl
    cases h
  rw [extent, isDigit_of_startsIdentifier h, hpoint, hplain.not_quote]
  simp [h]

/-- The extent of a token is within its text, and its characters spell its kind. -/
lemma spells_extent {afterNumber : Bool} {c : Char} (rest : List Char)
    (hblank : isBlank c = false) (hafter : (afterNumber && startsIdentifier c) = false) :
    (extent c rest).2 ≤ rest.length ∧
      Spells afterNumber (rest.drop (extent c rest).2) (extent c rest).1
        (c :: rest.take (extent c rest).2) := by
  rw [extent]
  split_ifs with hnumber hquote hword
  · obtain ⟨hle, hchars⟩ := numeral_chars rest
    refine ⟨hle, .number fun d hd => ?_⟩
    rcases List.mem_cons.mp hd with rfl | hd
    · simp only [Bool.or_eq_true, Bool.and_eq_true, beq_iff_eq] at hnumber
      exact hnumber.imp_right And.left
    · exact hchars d hd
  · have hle := literalExtent_le c rest
    refine ⟨hle, .literal hquote ?_⟩
    rw [List.take_append_drop, List.length_take_of_le hle]
  · have hle : identifierLength rest ≤ rest.length := (List.takeWhile_sublist _).length_le
    rw [hword, Bool.and_true] at hafter
    exact ⟨hle, .word hafter (isValidIdentifier_run hword)⟩
  · split
    · rename_i delimiter hdelimiter
      obtain rfl := Delimiter.char_of_ofChar? hdelimiter
      exact ⟨Nat.zero_le _, .delimiter delimiter⟩
    · rename_i hdelimiter
      split
      · rename_i operator more hoperator
        exact spells_operatorExtent? hoperator
      · exact ⟨Nat.zero_le _, .unknown hblank (by simpa using hquote) hdelimiter⟩

/-- The next token of a text is within the text, and its characters spell its kind. -/
lemma spells_step {afterNumber : Bool} {c : Char} {rest : List Char} {kind : TokenKind}
    {more : Nat} (hblank : isBlank c = false)
    (hstep : (if afterNumber && startsIdentifier c then (.invalid c, identifierLength rest)
      else extent c rest) = (kind, more)) :
    more ≤ rest.length ∧ Spells afterNumber (rest.drop more) kind (c :: rest.take more) := by
  split_ifs at hstep with hafter
  · obtain ⟨rfl, rfl⟩ := Prod.mk.inj hstep
    rw [Bool.and_eq_true] at hafter
    exact ⟨(List.takeWhile_sublist _).length_le,
      .run hafter.1 (isValidIdentifier_run hafter.2)⟩
  · have h := spells_extent rest hblank (Bool.eq_false_iff.mpr hafter)
    rw [hstep] at h
    exact h

/-! ### The tokens of a text -/

/-- The tokens cover a text that starts at a column, right after a numeral or not:
what stands before, between and after them is blank. -/
inductive Reads : Nat → Bool → List Char → List Token → Prop where
  | done {column : Nat} {afterNumber : Bool} : Reads column afterNumber [] []
  | blank {column : Nat} {afterNumber : Bool} {c : Char} {text : List Char}
      {tokens : List Token} (blank : isBlank c = true)
      (rest : Reads (column + 1) false text tokens) :
      Reads column afterNumber (c :: text) tokens
  | token {column : Nat} {afterNumber : Bool} {kind : TokenKind}
      {lexeme later : List Char} {tokens : List Token}
      (spells : Spells afterNumber later kind lexeme)
      (rest : Reads (column + lexeme.length) (kind == .number) later tokens) :
      Reads column afterNumber (lexeme ++ later) (⟨kind, lexeme, column⟩ :: tokens)

/-- Reading a text gives tokens that cover it. The induction is along the reading:
each step takes a blank or a token from the front. -/
theorem reads_read (column : Nat) (afterNumber : Bool) (text : List Char) :
    Reads column afterNumber text (read column afterNumber text) := by
  fun_induction read column afterNumber text with
  | case1 => exact .done
  | case2 column afterNumber c rest hblank ih => exact .blank hblank ih
  | case3 column afterNumber c rest hblank kind more hextent ih =>
      obtain ⟨hle, hspells⟩ := spells_step (Bool.eq_false_iff.mpr hblank) hextent
      have hlength : column + (c :: rest.take more).length = column + 1 + more := by
        rw [List.length_cons, List.length_take_of_le hle]
        omega
      have htext : c :: rest = (c :: rest.take more) ++ rest.drop more := by
        rw [List.cons_append, List.take_append_drop]
      rw [← hlength] at ih
      rw [htext, ← hlength]
      exact .token hspells ih

section Reads

variable {column : Nat} {afterNumber : Bool} {text : List Char} {tokens : List Token}
  {token : Token}

/-- A token stands somewhere in its text, at the column that its distance from the
start tells. -/
theorem Reads.exists_split (h : Reads column afterNumber text tokens) (hmem : token ∈ tokens) :
    ∃ (before later : List Char) (after : Bool), text = before ++ token.lexeme ++ later ∧
      token.column = column + before.length ∧ Spells after later token.kind token.lexeme := by
  induction h with
  | done => cases hmem
  | @blank column _ c text tokens _ _ ih =>
      obtain ⟨before, later, after, rfl, hcolumn, hspells⟩ := ih hmem
      refine ⟨c :: before, later, after, rfl, ?_, hspells⟩
      rw [hcolumn, List.length_cons]
      omega
  | @token column after kind lexeme text tokens spells _ ih =>
      rcases List.mem_cons.mp hmem with rfl | hmem
      · exact ⟨[], text, after, rfl, rfl, spells⟩
      · obtain ⟨before, later, after, rfl, hcolumn, hspells⟩ := ih hmem
        refine ⟨lexeme ++ before, later, after, ?_, ?_, hspells⟩
        · rw [List.append_assoc, List.append_assoc, List.append_assoc]
        · rw [hcolumn, List.length_append, Nat.add_assoc]

/-- No token stands left of the start of its text. -/
lemma Reads.le_column (h : Reads column afterNumber text tokens) (hmem : token ∈ tokens) :
    column ≤ token.column := by
  obtain ⟨before, _, _, _, hcolumn, _⟩ := h.exists_split hmem
  omega

/-- The columns increase along a line. -/
theorem Reads.pairwise_column (h : Reads column afterNumber text tokens) :
    tokens.Pairwise fun a b => a.column < b.column := by
  induction h with
  | done => exact .nil
  | blank _ _ ih => exact ih
  | @token column _ kind lexeme _ tokens spells rest ih =>
      refine .cons (fun other hother => ?_) ih
      have hle := rest.le_column hother
      have hpos := List.length_pos_of_ne_nil spells.ne_nil
      show column < other.column
      omega

/-- No token begins before an earlier one ends. -/
lemma Reads.pairwise_end (h : Reads column afterNumber text tokens) :
    tokens.Pairwise fun a b => a.column + a.lexeme.length ≤ b.column := by
  induction h with
  | done => exact .nil
  | blank _ _ ih => exact ih
  | token _ rest ih => exact .cons (fun _ hother => rest.le_column hother) ih

/-- A text has no more tokens than characters. -/
lemma Reads.length_le (h : Reads column afterNumber text tokens) :
    tokens.length ≤ text.length := by
  induction h with
  | done => exact le_rfl
  | blank _ _ ih => exact ih.trans (Nat.le_succ _)
  | token spells _ ih =>
      have hpos := List.length_pos_of_ne_nil spells.ne_nil
      rw [List.length_cons, List.length_append]
      omega

end Reads

end Token

end ScriptLint
