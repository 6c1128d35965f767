import Mathlib
import ScriptLint.Proofs.Reading.Literals

/-!
Cutting a text before a blank or a quote.

* `Separates`: a character that ends every token but a literal.
* `Token.extent_append`: a token does not depend on what follows such a character.
* `Token.Spells.after_eq_code`, `Token.Spells.open_literal`: behind a token code goes on,
  unless it is a literal without an end, which is the last token.
* `Token.Reads.exists_split_code`: before each token, code goes on;
  `Token.Reads.after_eq_code`, `Token.Reads.after_eq_code_of_gap`: so it does behind a text
  without an open literal, and wherever no token stands.
* `Token.read_append`: where code goes on, the tokens of a text are those before such a
  character and those from it on.
-/

namespace ScriptLint

open Text (isBlank)

/-- A blank or a quote: it ends every token but a literal. -/
def Separates (c : Char) : Prop :=
  isBlank c = true ∨ Zone.isQuote c = true

lemma Separates.not_isPlain {c : Char} (h : Separates c) : ¬ IsPlain c := by
  intro hplain
  rcases h with h | h
  · rw [hplain.not_blank] at h
    cases h
  · rw [hplain.not_quote] at h
    cases h

namespace Token

variable {column : Nat} {afterNumber : Bool} {c d : Char} {text rest later lexeme : List Char}
  {kind : TokenKind}

/-! ### The extent of a token before a separator -/

/-- Characters of a class are taken up to one that is not of the class. -/
lemma takeWhile_append_cons {p : Char → Bool} (h : p c = false) :
    (text ++ c :: later).takeWhile p = text.takeWhile p := by
  induction text with
  | nil => simp [h]
  | cons d rest ih =>
      rw [List.cons_append, List.takeWhile_cons, List.takeWhile_cons, ih]

lemma identifierLength_append (h : Separates c) :
    identifierLength (text ++ c :: later) = identifierLength text := by
  have hc : continuesIdentifier c = false := by
    by_contra hword
    exact h.not_isPlain (isPlain_of_continuesIdentifier (Bool.not_eq_false _ ▸ hword))
  rw [identifierLength, takeWhile_append_cons hc, identifierLength]

lemma digitsLength_append (h : Separates c) :
    digitsLength (text ++ c :: later) = digitsLength text := by
  have hc : c.isDigit = false := by
    by_contra hdigit
    exact h.not_isPlain (isPlain_of_numeral (.inl (Bool.not_eq_false _ ▸ hdigit)))
  rw [digitsLength, takeWhile_append_cons hc, digitsLength]

lemma fractionLength_append (h : Separates c) :
    fractionLength (text ++ c :: later) = fractionLength text := by
  cases text with
  | nil =>
      refine fractionLength_of_ne ?_
      rintro rfl
      exact h.not_isPlain (isPlain_of_numeral (.inr rfl))
  | cons d rest =>
      by_cases hd : d = '.'
      · rw [hd, List.cons_append, fractionLength, fractionLength, digitsLength_append h]
      · rw [List.cons_append, fractionLength_of_ne hd, fractionLength_of_ne hd]

lemma numeralLength_append (h : Separates c) :
    numeralLength (text ++ c :: later) = numeralLength text := by
  have hle : digitsLength text ≤ text.length := (List.takeWhile_sublist _).length_le
  rw [numeralLength, digitsLength_append h, List.drop_append_of_le_length hle,
    fractionLength_append h, numeralLength]

/-- An operator does not go on with a separator. -/
lemma operatorExtent?_append (h : Separates c) :
    operatorExtent? d (rest ++ c :: later) = operatorExtent? d rest := by
  cases rest with
  | nil =>
      have hpair : pairOperator? d c = none := by
        cases hpair : pairOperator? d c with
        | none => rfl
        | some operator => exact absurd (isPlain_of_pairOperator? hpair).2 h.not_isPlain
      rw [operatorExtent?, List.nil_append, List.head?_cons, Option.bind_some, hpair]
      rfl
  | cons first rest => rfl

/-- A backslash takes the next character with it. -/
lemma literalExtent_escape {quote : Char} :
    literalExtent quote ('\\' :: d :: rest) =
      ((literalExtent quote rest).1 + 2, (literalExtent quote rest).2) := by
  rw [literalExtent, if_pos rfl]

/-- The quote closes a literal. -/
lemma literalExtent_close {quote : Char} (h : quote ≠ '\\') :
    literalExtent quote (quote :: rest) = (1, true) := by
  rw [literalExtent.eq_def]
  dsimp only
  rw [if_neg h, if_pos rfl]

/-- Any other character leaves a literal open. -/
lemma literalExtent_plain {quote : Char} (hescape : d ≠ '\\') (hquote : d ≠ quote) :
    literalExtent quote (d :: rest) =
      ((literalExtent quote rest).1 + 1, (literalExtent quote rest).2) := by
  rw [literalExtent.eq_def]
  dsimp only
  rw [if_neg hescape, if_neg hquote]

/-- A literal that is closed does not depend on what follows it. -/
lemma literalExtent_append {quote : Char} (h : (literalExtent quote text).2 = true) :
    literalExtent quote (text ++ later) = literalExtent quote text := by
  fun_induction literalExtent quote text with
  | case1 => cases h
  | case2 => cases h
  | case3 guarded rest more closed hextent ih =>
      rw [hextent] at ih
      rw [List.cons_append, List.cons_append, literalExtent_escape, ih h]
  | case4 rest hescape => rw [List.cons_append, literalExtent_close hescape]
  | case5 first rest hescape hclose more closed hextent ih =>
      rw [hextent] at ih
      rw [List.cons_append, literalExtent_plain hescape hclose, ih h]

/-- A token that is no open literal does not depend on what follows a separator. -/
lemma extent_append (h : Separates c) (hclosed : (extent d rest).1 ≠ .literal false) :
    extent d (rest ++ c :: later) = extent d rest := by
  have hle : identifierLength rest ≤ rest.length := (List.takeWhile_sublist _).length_le
  rw [extent] at hclosed
  rw [extent, digitsLength_append h, numeralLength_append h, identifierLength_append h,
    operatorExtent?_append h]
  dsimp only
  rw [List.take_append_of_le_length hle, extent]
  split_ifs with hnumber hquote hword
  · rfl
  · rw [if_neg hnumber, if_pos hquote] at hclosed
    have hend : (literalExtent d rest).2 = true := by
      cases hend : (literalExtent d rest).2 with
      | true => rfl
      | false => exact absurd (congrArg TokenKind.literal hend) hclosed
    rw [literalExtent_append hend]
  · rfl
  · rfl

/-! ### Behind a token -/

/-- Code goes on behind a literal that is closed. -/
lemma after_take_literal {quote : Char} (h : (literalExtent quote text).2 = true) :
    (Zone.literal quote).after (text.take (literalExtent quote text).1) = .code := by
  fun_induction literalExtent quote text with
  | case1 => cases h
  | case2 => cases h
  | case3 guarded rest more closed hextent ih =>
      rw [hextent] at ih
      exact ih h
  | case4 rest hescape => exact Zone.next_literal_close hescape
  | case5 first rest hescape hclose more closed hextent ih =>
      rw [hextent] at ih
      rw [List.take_succ_cons, Zone.after_cons, Zone.next_literal_plain hescape hclose]
      exact ih h

/-- A literal that is not closed has no end. -/
lemma literal_of_open {quote : Char} (h : (literalExtent quote text).2 = false) :
    (literalExtent quote text).1 = text.length ∧ (Zone.literal quote).after text ≠ .code := by
  fun_induction literalExtent quote text with
  | case1 => exact ⟨rfl, Zone.noConfusion⟩
  | case2 => exact ⟨rfl, Zone.noConfusion⟩
  | case3 guarded rest more closed hextent ih =>
      rw [hextent] at ih
      obtain ⟨hlength, hafter⟩ := ih h
      exact ⟨congrArg (· + 2) hlength, hafter⟩
  | case4 => cases h
  | case5 first rest hescape hclose more closed hextent ih =>
      rw [hextent] at ih
      obtain ⟨hlength, hafter⟩ := ih h
      rw [Zone.after_cons, Zone.next_literal_plain hescape hclose]
      exact ⟨congrArg (· + 1) hlength, hafter⟩

/-- The spelling of a literal. -/
lemma Spells.exists_quote {closed : Bool} (h : Spells afterNumber later (.literal closed) lexeme) :
    ∃ quote body, lexeme = quote :: body ∧ Zone.isQuote quote = true ∧
      literalExtent quote (body ++ later) = (body.length, closed) := by
  generalize hkind : TokenKind.literal closed = kind at h
  cases h with
  | literal quotes extent =>
      obtain rfl := TokenKind.literal.inj hkind
      exact ⟨_, _, rfl, quotes, extent⟩
  | word _ _ =>
      exact absurd hkind.symm
        (wordKind_ne _ TokenKind.noConfusion fun _ => TokenKind.noConfusion)
  | _ => cases hkind

/-- Behind a token that is no open literal, code goes on. -/
lemma Spells.after_eq_code (h : Spells afterNumber later kind lexeme)
    (hkind : kind ≠ .literal false) : Zone.code.after lexeme = .code := by
  by_cases hliteral : ∀ closed, kind ≠ .literal closed
  · exact (code_of_not_quote fun c hc => (h.not_blank_not_quote hliteral c hc).2).2
  · obtain ⟨closed, hclosed⟩ := not_forall_not.mp hliteral
    obtain rfl : closed = true := by
      cases closed with
      | true => rfl
      | false => exact absurd hclosed hkind
    rw [hclosed] at h
    obtain ⟨quote, body, rfl, hquote, hextent⟩ := h.exists_quote
    have hend := after_take_literal (congrArg Prod.snd hextent)
    rw [hextent, List.take_left] at hend
    rw [Zone.after_cons, Zone.next_code_of_quote hquote, hend]

/-- An open literal goes on to the end of the text. -/
lemma Spells.open_literal (h : Spells afterNumber later (.literal false) lexeme) :
    later = [] ∧ Zone.code.after (lexeme ++ later) ≠ .code := by
  obtain ⟨quote, body, rfl, hquote, hextent⟩ := h.exists_quote
  obtain ⟨hlength, hafter⟩ := literal_of_open (congrArg Prod.snd hextent)
  rw [hextent, List.length_append] at hlength
  refine ⟨List.length_eq_zero_iff.mp (by omega), ?_⟩
  rw [List.cons_append, Zone.after_cons, Zone.next_code_of_quote hquote]
  exact hafter

/-- A token that something follows is no open literal. -/
lemma Spells.kind_ne_open (h : Spells afterNumber later kind lexeme) (hlater : later ≠ []) :
    kind ≠ .literal false := by
  rintro rfl
  exact hlater h.open_literal.1

/-- A token stands in its text where code goes on. -/
theorem Reads.exists_split_code {tokens : List Token} {token : Token}
    (h : Reads column afterNumber text tokens) (hmem : token ∈ tokens) :
    ∃ (before later : List Char) (after : Bool), text = before ++ (token.lexeme ++ later) ∧
      token.column = column + before.length ∧ Spells after later token.kind token.lexeme ∧
        Zone.code.after before = .code := by
  induction h with
  | done => cases hmem
  | @blank column _ c text tokens blank _ ih =>
      obtain ⟨before, later, after, rfl, hcolumn, hspells, hcode⟩ := ih hmem
      refine ⟨c :: before, later, after, rfl, ?_, hspells, ?_⟩
      · rw [hcolumn, List.length_cons]
        omega
      · rw [Zone.after_cons, Zone.next_code_of_not_quote (not_quote_of_blank blank), hcode]
  | @token column flag kind lexeme text tokens spells rest ih =>
      rcases List.mem_cons.mp hmem with rfl | hlater
      · exact ⟨[], text, flag, rfl, rfl, spells, rfl⟩
      · -- more tokens follow, so this one has an end
        have hkind : kind ≠ .literal false := by
          obtain ⟨_, _, _, htext, _, hspells⟩ := rest.exists_split hlater
          exact spells.kind_ne_open (by simp [htext, hspells.ne_nil])
        obtain ⟨before, later, after, rfl, hcolumn, hspells, hcode⟩ := ih hlater
        refine ⟨lexeme ++ before, later, after, ?_, ?_, hspells, ?_⟩
        · rw [List.append_assoc]
        · rw [hcolumn, List.length_append, Nat.add_assoc]
        · rw [Zone.after_append, spells.after_eq_code hkind, hcode]

/-- Behind a text without an open literal, code goes on. -/
lemma Reads.after_eq_code (h : Reads column afterNumber text tokens)
    (hclosed : ∀ token ∈ tokens, token.kind ≠ .literal false) : Zone.code.after text = .code := by
  induction h with
  | done => rfl
  | blank blank _ ih =>
      rw [Zone.after_cons, Zone.next_code_of_not_quote (not_quote_of_blank blank), ih hclosed]
  | token spells _ ih =>
      obtain ⟨hfirst, hlater⟩ := List.forall_mem_cons.mp hclosed
      rw [Zone.after_append, spells.after_eq_code hfirst, ih hlater]

/-- Where no token stands, code goes on. -/
lemma Reads.after_eq_code_of_gap (h : Reads column afterNumber text tokens)
    (htext : text = before ++ c :: later)
    (hgap : ∀ token ∈ tokens, ¬ token.Covers (column + before.length)) :
    Zone.code.after before = .code := by
  induction h generalizing before with
  | done => simp at htext
  | @blank column _ d text tokens blank _ ih =>
      cases before with
      | nil => rfl
      | cons first before =>
          obtain ⟨rfl, rfl⟩ := List.cons.inj htext
          rw [Zone.after_cons, Zone.next_code_of_not_quote (not_quote_of_blank blank)]
          refine ih rfl fun token hmem => ?_
          have hnot := hgap token hmem
          rwa [List.length_cons, Nat.add_comm before.length, ← Nat.add_assoc] at hnot
  | @token column _ kind lexeme text tokens spells _ ih =>
      obtain ⟨hfirst, hlater⟩ := List.forall_mem_cons.mp hgap
      have hle : lexeme.length ≤ before.length := by
        by_contra hlt
        exact hfirst ⟨Nat.le_add_right _ _, Nat.add_lt_add_left (Nat.lt_of_not_le hlt) _⟩
      obtain ⟨between, rfl⟩ : lexeme <+: before :=
        List.prefix_of_prefix_length_le ⟨text, htext⟩ (List.prefix_append _ _) hle
      rw [List.append_assoc, List.append_cancel_left_eq] at htext
      have hkind := spells.kind_ne_open (by simp [htext])
      rw [Zone.after_append, spells.after_eq_code hkind]
      refine ih htext fun token hmem => ?_
      have hnot := hlater token hmem
      rwa [List.length_append, ← Nat.add_assoc] at hnot

/-! ### Cutting a text -/

/-- At a separator it does not matter whether a numeral stands before it. -/
lemma read_of_separates (h : Separates c) :
    read column afterNumber (c :: later) = read column false (c :: later) := by
  have hword : startsIdentifier c = false := by
    by_contra hword
    rw [Bool.not_eq_false] at hword
    exact h.not_isPlain (isPlain_of_continuesIdentifier (continuesIdentifier_of_starts hword))
  rw [read, read, hword, Bool.and_false]
  rfl

/-- **Cutting**: where code goes on behind a text, its tokens are those of the text alone
if a blank or a quote follows. The induction is along the reading of the text. -/
theorem read_append (hcode : Zone.code.after text = .code) (h : Separates c) :
    read column afterNumber (text ++ c :: later) =
      read column afterNumber text ++ read (column + text.length) false (c :: later) := by
  fun_induction read column afterNumber text with
  | case1 column afterNumber => exact read_of_separates h
  | case2 column afterNumber d rest hblank ih =>
      have hrest : Zone.code.after rest = .code := by
        rwa [Zone.after_cons, Zone.next_code_of_not_quote (not_quote_of_blank hblank)] at hcode
      have hcolumn : column + 1 + rest.length = column + (d :: rest).length := by
        rw [List.length_cons]
        omega
      rw [List.cons_append, read, if_pos hblank, ih hrest, hcolumn]
  | case3 column afterNumber d rest hblank kind more hextent ih =>
      obtain ⟨hle, hspells⟩ := spells_step (Bool.eq_false_iff.mpr hblank) hextent
      have htext : d :: rest = (d :: rest.take more) ++ rest.drop more := by
        rw [List.cons_append, List.take_append_drop]
      have hkind : kind ≠ .literal false := by
        rintro rfl
        rw [htext] at hcode
        exact hspells.open_literal.2 hcode
      have hrest : Zone.code.after (rest.drop more) = .code := by
        rwa [htext, Zone.after_append, hspells.after_eq_code hkind] at hcode
      have hsame : (if afterNumber && startsIdentifier d then
          (.invalid d, identifierLength (rest ++ c :: later))
          else extent d (rest ++ c :: later)) = (kind, more) := by
        rw [← hextent, identifierLength_append h]
        split_ifs with hafter
        · rfl
        · rw [dif_neg hafter] at hextent
          exact extent_append h (hextent ▸ hkind)
      have hcolumn : column + 1 + more + (rest.drop more).length =
          column + (d :: rest).length := by
        rw [List.length_drop, List.length_cons]
        omega
      rw [List.cons_append, read, if_neg hblank, hsame]
      dsimp only
      rw [List.take_append_of_le_length hle, List.drop_append_of_le_length hle, ih hrest,
        hcolumn, List.cons_append]

end Token

end ScriptLint
