import Mathlib
import ScriptLint.Proofs.Labels.Spelling
import ScriptLint.Proofs.Reading.Tiling
import ScriptLint.Proofs.Reading.Extents
import ScriptLint.Proofs.Subjects

/-!
The characters of a line that belong to no token.

* `InAlphabet`: the characters that scripts are written in.
* `SourceLine.Glued`, `SourceLine.Leaves`: a letter right behind a number; a place outside
  literals where a line leaves the alphabet or goes on with such a letter.
* `Token.exists_read_behind`: behind one of its tokens a text is read on.
* `SourceLine.Glued.exists_tail`: letters behind a number are one invalid token.
* `SourceLine.leaves_iff`: the places where a line leaves the alphabet are those where its
  invalid tokens start.
* `SourceLine.tellsAlphabet`: an invalid character is told exactly of the lines that leave the
  alphabet, once, and at the first place where they do.
-/

namespace ScriptLint

open Text (isBlank)

/-! ### The alphabet -/

/-- The marks with a meaning of their own. -/
def punctuation : List Char :=
  ['(', ')', '[', ']', '\x7b', '\x7d', ',', '.', ':', ';', '\\',
    '+', '-', '*', '/', '%', '^', '~', '?', '=', '!', '>', '<', '&', '|']

/-- Blanks, letters A to Z of either case, digits, the underscore, quotes and punctuation. -/
def InAlphabet (c : Char) : Prop :=
  isBlank c = true ∨ c.isAlphanum = true ∨ c = '_' ∨ Zone.isQuote c = true ∨ c ∈ punctuation

lemma inAlphabet_of_continuesIdentifier {c : Char} (h : Token.continuesIdentifier c = true) :
    InAlphabet c := by
  rw [Token.continuesIdentifier, Bool.or_eq_true, beq_iff_eq] at h
  exact .inr (h.imp_right .inl)

lemma inAlphabet_of_punctuation {c : Char} (h : c ∈ punctuation) : InAlphabet c :=
  .inr (.inr (.inr (.inr h)))

lemma delimiter_mem_punctuation (delimiter : Delimiter) : delimiter.char ∈ punctuation := by
  cases delimiter <;> decide

/-- Punctuation is what delimiters and operators are made of. -/
lemma mem_punctuation_iff {c : Char} :
    c ∈ punctuation ↔ (Delimiter.ofChar? c).isSome ∨ (Token.singleOperator? c).isSome := by
  constructor
  · intro h
    fin_cases h <;> decide
  · rintro (h | h)
    · obtain ⟨delimiter, hdelimiter⟩ := Option.isSome_iff_exists.mp h
      obtain rfl := Delimiter.char_of_ofChar? hdelimiter
      exact delimiter_mem_punctuation delimiter
    · unfold Token.singleOperator? at h
      split at h
      case h_15 => cases h
      all_goals decide

namespace Token

variable {column more : ℕ} {afterNumber : Bool} {c d : Char} {kind : TokenKind}
  {text rest later lexeme : List Char} {tokens : List Token} {token : Token}

lemma pairOperator?_mem {operator : Operator} (h : pairOperator? c d = some operator) :
    c ∈ punctuation ∧ d ∈ punctuation := by
  unfold pairOperator? at h
  split at h
  case h_8 => cases h
  all_goals decide

/-- Outside literals, a character that is not in the alphabet is an invalid token of its own. -/
lemma Spells.eq_of_not_inAlphabet (h : Spells afterNumber later kind lexeme)
    (hkind : ∀ closed, kind ≠ .literal closed) (hmem : c ∈ lexeme) (hc : ¬InAlphabet c) :
    kind = .invalid c ∧ lexeme = [c] := by
  have hword : ∀ {word : List Char}, isValidIdentifier word = true → c ∉ word :=
    fun hvalid hword =>
      hc (inAlphabet_of_continuesIdentifier (continuesIdentifier_of_valid hvalid c hword))
  cases h with
  | word _ valid => exact absurd hmem (hword valid)
  | run _ valid => exact absurd hmem (hword valid)
  | number chars =>
      rcases chars c hmem with hdigit | rfl
      · exact absurd (.inr (.inl (by simp [Char.isAlphanum, hdigit]))) hc
      · exact absurd (inAlphabet_of_punctuation (by decide)) hc
  | literal _ _ => exact absurd rfl (hkind _)
  | delimiter delimiter =>
      obtain rfl := List.mem_singleton.mp hmem
      exact absurd (inAlphabet_of_punctuation (delimiter_mem_punctuation delimiter)) hc
  | single single =>
      obtain rfl := List.mem_singleton.mp hmem
      have hsome := mem_punctuation_iff.mpr (.inr (Option.isSome_of_eq_some single))
      exact absurd (inAlphabet_of_punctuation hsome) hc
  | pair pair =>
      obtain ⟨hfirst, hsecond⟩ := pairOperator?_mem pair
      simp only [List.mem_cons, List.not_mem_nil, or_false] at hmem
      rcases hmem with rfl | rfl
      · exact absurd (inAlphabet_of_punctuation hfirst) hc
      · exact absurd (inAlphabet_of_punctuation hsecond) hc
  | unknown _ _ _ =>
      obtain rfl := List.mem_singleton.mp hmem
      exact ⟨rfl, rfl⟩

/-- A character with an invalid extent is not in the alphabet. -/
lemma not_inAlphabet_of_extent (hblank : isBlank d = false)
    (h : (extent d rest).1 = .invalid c) : d = c ∧ ¬InAlphabet d := by
  rw [extent] at h
  split_ifs at h with hnumber hquote hletter
  · exact absurd h (wordKind_ne _ TokenKind.noConfusion fun _ => TokenKind.noConfusion)
  · split at h
    · cases h
    · rename_i hdelimiter
      split at h
      · cases h
      · rename_i hoperator
        refine ⟨TokenKind.invalid.inj h, ?_⟩
        rintro (hd | halnum | rfl | hd | hd)
        · rw [hblank] at hd
          cases hd
        · rw [Char.isAlphanum, Bool.or_eq_true] at halnum
          rcases halnum with halpha | hdigit
          · exact hletter (by rw [startsIdentifier, halpha, Bool.true_or])
          · exact hnumber (by rw [hdigit, Bool.true_or])
        · exact hletter (by decide)
        · exact hquote hd
        · rcases mem_punctuation_iff.mp hd with hsome | hsome
          · rw [hdelimiter] at hsome
            cases hsome
          · obtain ⟨operator, hsingle⟩ := Option.isSome_iff_exists.mp hsome
            rw [operatorExtent?, hsingle] at hoperator
            split at hoperator <;> cases hoperator

/-- A run of characters of a class goes at least as far as they do. -/
lemma le_length_takeWhile {p : Char → Bool} {count : ℕ}
    (h : ∀ index < count, ∃ d, text[index]? = some d ∧ p d = true) :
    count ≤ (text.takeWhile p).length := by
  induction text generalizing count with
  | nil =>
      by_contra hlt
      obtain ⟨_, hget, _⟩ := h 0 (Nat.pos_of_ne_zero fun hzero => hlt hzero.le)
      cases hget
  | cons first rest ih =>
      cases count with
      | zero => exact Nat.zero_le _
      | succ count =>
          obtain ⟨_, hget, hfirst⟩ := h 0 (Nat.succ_pos _)
          obtain rfl := Option.some.inj hget
          rw [List.takeWhile_cons_of_pos hfirst, List.length_cons]
          exact Nat.succ_le_succ (ih fun index hindex => h (index + 1) (Nat.succ_lt_succ hindex))

/-- Behind one of its tokens a text is read on, with a number before it or not. -/
theorem exists_read_behind (h : token ∈ read column afterNumber text) :
    ∃ (before later : List Char) (early : List Token), text = before ++ (token.lexeme ++ later) ∧
      token.column = column + before.length ∧
      read column afterNumber text = early ++ token ::
        read (token.column + token.lexeme.length) (token.kind == .number) later := by
  fun_induction read column afterNumber text with
  | case1 => cases h
  | case2 column afterNumber c rest hblank ih =>
      obtain ⟨before, later, early, rfl, hcolumn, hread⟩ := ih h
      refine ⟨c :: before, later, early, rfl, ?_, hread⟩
      rw [hcolumn, List.length_cons]
      omega
  | case3 column afterNumber c rest hblank kind more hstep ih =>
      obtain ⟨hle, _⟩ := spells_step (Bool.eq_false_iff.mpr hblank) hstep
      have hlength : (c :: rest.take more).length = 1 + more := by
        rw [List.length_cons, List.length_take_of_le hle, Nat.add_comm]
      rcases List.mem_cons.mp h with rfl | hlater
      · refine ⟨[], rest.drop more, [], ?_, rfl, ?_⟩
        · rw [List.nil_append, List.cons_append, List.take_append_drop]
        · dsimp only
          rw [hlength, List.nil_append, Nat.add_assoc]
      · obtain ⟨before, later, early, htext, hcolumn, hread⟩ := ih hlater
        refine ⟨c :: rest.take more ++ before, later,
          ⟨kind, c :: rest.take more, column⟩ :: early, ?_, ?_, ?_⟩
        · rw [List.append_assoc, ← htext, List.cons_append, List.take_append_drop]
        · rw [hcolumn, List.length_append, hlength]
          omega
        · rw [hread, List.cons_append]

end Token

namespace SourceLine

variable {line : SourceLine} {index place : ℕ} {c : Char} {token : Token}

/-! ### Places where a line leaves the alphabet -/

/-- The character is a letter or an underscore right behind the last character of a number. -/
structure Glued (line : SourceLine) (index : ℕ) (c : Char) : Prop where
  getElem? : line.text[index]? = some c
  letter : Token.startsIdentifier c = true
  exists_numeral : ∃ numeral ∈ Token.ofLine line, numeral.kind = .number ∧
    numeral.column + numeral.lexeme.length = line.column index

/-- The character stands outside literals, and it is not in the alphabet or is a letter right
behind a number. -/
structure Leaves (line : SourceLine) (index : ℕ) (c : Char) : Prop where
  getElem? : line.text[index]? = some c
  not_literal : ∀ token ∈ Token.ofLine line, token.IsLiteral → ¬token.Covers (line.column index)
  leaves : ¬InAlphabet c ∨ line.Glued index c

/-- At most one token of a line stands over a column. -/
lemma eq_of_covers {other : Token} {column : ℕ} (htoken : token ∈ Token.ofLine line)
    (hother : other ∈ Token.ofLine line) (hover : token.Covers column)
    (hover' : other.Covers column) : token = other :=
  (Token.reads_read _ _ _).eq_of_covers htoken hother hover hover'

/-- A token stands over its first character. -/
lemma covers_column (htoken : token ∈ Token.ofLine line) : token.Covers token.column :=
  ⟨le_refl _, Nat.lt_add_of_pos_right
    (List.length_pos_of_ne_nil ((tiles_ofLine line).lexeme_ne_nil token htoken))⟩

/-- Letters behind a number are one invalid token, which goes as far as they do. -/
theorem Glued.exists_tail (h : line.Glued index c) :
    ∃ tail ∈ Token.ofLine line, tail.kind = .invalid c ∧ tail.column = line.column index ∧
      tail.lexeme = (line.text.drop index).takeWhile Token.continuesIdentifier := by
  obtain ⟨numeral, hnumeral, hkind, hend⟩ := h.exists_numeral
  obtain ⟨before, later, early, htext, hcolumn, hread⟩ := Token.exists_read_behind hnumeral
  have hindex : index = (before ++ numeral.lexeme).length := by
    rw [List.length_append]
    rw [SourceLine.column] at hend hcolumn
    omega
  have hlater : line.text.drop index = later := by
    rw [htext, ← List.append_assoc, hindex, List.drop_left]
  obtain ⟨rest, rfl⟩ : ∃ rest, later = c :: rest := by
    rw [← hlater, ← List.head?_eq_some_iff, List.head?_drop, h.getElem?]
  have hword := continuesIdentifier_of_starts h.letter
  have hblank := (isPlain_of_continuesIdentifier hword).not_blank
  refine ⟨⟨.invalid c, c :: rest.take (Token.identifierLength rest), line.column index⟩, ?_, rfl,
    rfl, ?_⟩
  · -- reading goes on right behind the number, with this token
    rw [Token.ofLine, hread, hkind, hend, Token.read, if_neg (Bool.eq_false_iff.mp hblank)]
    simp [h.letter]
  · rw [hlater, List.takeWhile_cons_of_pos hword, Token.identifierLength,
      Token.take_takeWhile_length]

/-- Where a line leaves the alphabet, an invalid token starts. -/
lemma Leaves.exists_invalid (h : line.Leaves index c) :
    ∃ token ∈ Token.ofLine line, token.kind = .invalid c ∧ token.column = line.column index := by
  rcases h.leaves with hc | hglued
  · have hblank : isBlank c = false := Bool.eq_false_iff.mpr fun hblank => hc (.inl hblank)
    obtain ⟨token, htoken, hcovers⟩ := (tiles_ofLine line).exists_covers index h.getElem? hblank
    have hliteral : ∀ closed, token.kind ≠ .literal closed := fun closed hkind =>
      h.not_literal token htoken ⟨closed, hkind⟩ hcovers
    obtain ⟨before, later, _, htext, hcolumn, hspells⟩ :=
      (Token.reads_read _ _ _).exists_split htoken
    obtain ⟨hle, hlt⟩ := hcovers
    have hmem : c ∈ token.lexeme := by
      have hget := h.getElem?
      rw [SourceLine.column] at hle hlt hcolumn
      rw [htext, List.append_assoc, List.getElem?_append_right (by omega),
        List.getElem?_append_left (by omega)] at hget
      exact List.mem_of_getElem? hget
    obtain ⟨hkind, hlexeme⟩ := hspells.eq_of_not_inAlphabet hliteral hmem hc
    rw [hlexeme, List.length_singleton] at hlt
    exact ⟨token, htoken, hkind, by omega⟩
  · obtain ⟨tail, htail, hkind, hcolumn, _⟩ := hglued.exists_tail
    exact ⟨tail, htail, hkind, hcolumn⟩

/-- Where an invalid token starts, a line leaves the alphabet. -/
lemma exists_leaves (htoken : token ∈ Token.ofLine line) (hkind : token.kind = .invalid c) :
    ∃ index, token.column = line.column index ∧ line.Leaves index c := by
  obtain ⟨before, d, rest, htext, hcolumn, hstart⟩ := Token.exists_start_ofLine htoken
  have hget : line.text[before.length]? = some d := by
    rw [htext, List.getElem?_append_right (le_refl _), Nat.sub_self, List.getElem?_cons_zero]
  have hliteral : ∀ other ∈ Token.ofLine line, other.IsLiteral →
      ¬other.Covers (line.column before.length) := by
    rintro other hother ⟨closed, hclosed⟩ hcovers
    obtain rfl := eq_of_covers hother htoken hcovers (hcolumn ▸ covers_column htoken)
    rw [hkind] at hclosed
    cases hclosed
  refine ⟨before.length, hcolumn, ?_⟩
  rcases hstart with hextent | htail
  · obtain ⟨rfl, hd⟩ :=
      Token.not_inAlphabet_of_extent hextent.not_blank (hextent.kind_eq.symm.trans hkind)
    exact ⟨hget, hliteral, .inl hd⟩
  · obtain ⟨letter, hletter, hinvalid⟩ := htail.exists_letter
    obtain rfl := TokenKind.invalid.inj (hinvalid.symm.trans hkind)
    -- the token begins with its letter
    have hletters : line.text[before.length]? = some letter := by
      obtain ⟨front, later, _, hsplit, hplace, hspells⟩ :=
        (Token.reads_read _ _ _).exists_split htoken
      obtain ⟨others, hlexeme⟩ := List.head?_eq_some_iff.mp (hinvalid ▸ hspells).head?_invalid
      have hlength : before.length = front.length := by
        rw [SourceLine.column] at hcolumn hplace
        omega
      rw [hsplit, hlexeme, List.append_assoc, hlength,
        List.getElem?_append_right (le_refl _), Nat.sub_self]
      rfl
    obtain ⟨numeral, hnumeral, hnumber, hend⟩ := htail.exists_numeral
    exact ⟨hletters, hliteral,
      .inr ⟨hletters, hletter, numeral, hnumeral, hnumber, hend.trans hcolumn⟩⟩

/-! ### What is told of invalid characters -/

/-- Of what a line shows by itself, the findings on characters. -/
lemma filter_lineShapeFindings (number : ℕ) (tokens : List Token) :
    ((lineShapeFindings number tokens).map Issue.ofFinding).filter
      (·.code == .invalidCharacter) =
        (invalidCharacter? number tokens).toList.map Issue.ofFinding := by
  have hbrackets : ∀ kind, (unbalanced? kind number tokens).toList.filter
      ((·.code == .invalidCharacter) ∘ Issue.ofFinding) = [] := by
    refine fun kind => List.filter_eq_nil_iff.mpr fun finding hfinding => ?_
    obtain ⟨_, _, _, _, _, _, _, _, rfl⟩ := unbalanced?_eq_some (Option.mem_toList.mp hfinding)
    cases kind <;> simp [Issue.ofFinding, Issue.ofCode, Problem.code]
  have hcharacters : (invalidCharacter? number tokens).toList.filter
      ((·.code == .invalidCharacter) ∘ Issue.ofFinding) =
        (invalidCharacter? number tokens).toList := by
    refine List.filter_eq_self.mpr fun finding hfinding => ?_
    obtain ⟨_, _, _, _, _, _, rfl⟩ := invalidCharacter?_eq_some (Option.mem_toList.mp hfinding)
    rfl
  rw [List.filter_map, lineShapeFindings_eq, List.filter_append, List.filter_append,
    hbrackets, hbrackets, hcharacters, List.nil_append, List.nil_append]

/-- The first place where a line leaves the alphabet is where its first invalid token starts. -/
lemma Leaves.invalidCharacter?_eq (h : line.Leaves index c)
    (hfirst : ∀ earlier < index, ∀ d, ¬line.Leaves earlier d) :
    invalidCharacter? line.number (Token.ofLine line) =
      some ⟨⟨line.number, line.column index⟩, .invalidCharacter c⟩ := by
  obtain ⟨token, htoken, hkind, hcolumn⟩ := h.exists_invalid
  cases hfound : invalidCharacter? line.number (Token.ofLine line) with
  | none => exact absurd hkind (invalidCharacter?_eq_none_iff.mp hfound token htoken c)
  | some finding =>
      obtain ⟨before, first, later, hsplit, hsome, hbefore⟩ := List.findSome?_eq_some_iff.mp hfound
      obtain ⟨d, hd, rfl⟩ := Option.map_eq_some_iff.mp hsome
      have hinvalid := Token.invalidCharacter?_eq_some_iff.mp hd
      have hmem : first ∈ Token.ofLine line := hsplit ▸ List.mem_append_right _ List.mem_cons_self
      obtain ⟨place, hplace, hleaves⟩ := exists_leaves hmem hinvalid
      have hle : index ≤ place := le_of_not_gt fun hlt => hfirst place hlt d hleaves
      have hcolumns := (Token.reads_read (line.column 0) false line.text).pairwise_column
      rw [← Token.ofLine, hsplit, List.pairwise_append, List.pairwise_cons] at hcolumns
      -- the token found is the one that starts at the first place
      have hsame : token = first := by
        rw [hsplit, List.mem_append, List.mem_cons] at htoken
        rcases htoken with hearly | hhere | hlate
        · have hnone := hbefore token hearly
          rw [Token.invalidCharacter?_eq_some_iff.mpr hkind] at hnone
          cases hnone
        · exact hhere
        · have hlt := hcolumns.2.1.1 token hlate
          rw [SourceLine.column] at hcolumn hplace
          omega
      subst hsame
      obtain rfl := TokenKind.invalid.inj (hinvalid.symm.trans hkind)
      rw [hcolumn]

/-- Invalid characters are told of a line exactly when it leaves the alphabet. -/
structure TellsAlphabet (line : SourceLine) : Prop where
  told_iff : (∃ issue ∈ (lineShapeFindings line.number (Token.ofLine line)).map Issue.ofFinding,
    issue.code = .invalidCharacter) ↔ ∃ index c, line.Leaves index c
  /-- One issue is told, at the first place and with the character there. -/
  told_first : ∀ index c, line.Leaves index c → (∀ earlier < index, ∀ d, ¬line.Leaves earlier d) →
    ((lineShapeFindings line.number (Token.ofLine line)).map Issue.ofFinding).filter
      (·.code == .invalidCharacter) =
        [⟨⟨line.number, line.column index⟩, "Invalid character '" ++ c.toString ++ "'", .error,
          .invalidCharacter⟩]
  /-- All characters of identifiers behind a number that a letter follows stand in one token,
  which is neither an identifier nor a keyword and is not called. -/
  glued : ∀ index c, line.Glued index c → ∃ tail ∈ Token.ofLine line,
    tail.column = line.column index ∧ tail.kind = .invalid c ∧
      (∀ place, index ≤ place → (∀ between, index ≤ between → between ≤ place →
        ∃ d, line.text[between]? = some d ∧ Token.continuesIdentifier d = true) →
          ∀ token ∈ Token.ofLine line, token.Covers (line.column place) ↔ token = tail) ∧
      tail ∉ calls (Token.ofLine line)

/-- **The alphabet**: of every line that leaves the alphabet one invalid character is told, the
first one outside literals that is not in the alphabet or is a letter right behind a number. -/
theorem tellsAlphabet (line : SourceLine) : TellsAlphabet line where
  told_iff := by
    have hfilter := filter_lineShapeFindings line.number (Token.ofLine line)
    constructor
    · rintro ⟨issue, hissue, hcode⟩
      have hmem := List.mem_filter (p := (·.code == .invalidCharacter)) |>.mpr
        ⟨hissue, beq_iff_eq.mpr hcode⟩
      rw [hfilter] at hmem
      obtain ⟨finding, hfinding, _⟩ := List.mem_map.mp hmem
      obtain ⟨_, token, _, c, hsplit, hkind, _⟩ :=
        invalidCharacter?_eq_some (Option.mem_toList.mp hfinding)
      obtain ⟨index, _, hleaves⟩ :=
        exists_leaves (hsplit ▸ List.mem_append_right _ List.mem_cons_self) hkind
      exact ⟨index, c, hleaves⟩
    · rintro ⟨index, c, hleaves⟩
      obtain ⟨token, htoken, hkind, _⟩ := hleaves.exists_invalid
      obtain ⟨finding, hfinding⟩ := Option.ne_none_iff_exists'.mp fun hnone =>
        invalidCharacter?_eq_none_iff.mp hnone token htoken c hkind
      rw [hfinding] at hfilter
      have hmem : Issue.ofFinding finding ∈ [finding].map Issue.ofFinding := List.mem_cons_self
      obtain ⟨hissue, hcode⟩ := List.mem_filter.mp (hfilter ▸ hmem)
      exact ⟨_, hissue, beq_iff_eq.mp hcode⟩
  told_first index c h hfirst := by
    rw [filter_lineShapeFindings, h.invalidCharacter?_eq hfirst]
    rfl
  glued index c h := by
    obtain ⟨tail, htail, hkind, hcolumn, hlexeme⟩ := h.exists_tail
    refine ⟨tail, htail, hcolumn, hkind, fun place hle hrun token htoken => ?_, fun hcall => ?_⟩
    · have hcovers : tail.Covers (line.column place) := by
        have hlength : place - index + 1 ≤ tail.lexeme.length := by
          rw [hlexeme]
          refine Token.le_length_takeWhile fun offset hoffset => ?_
          rw [List.getElem?_drop]
          exact hrun _ (Nat.le_add_right _ _) (by omega)
        rw [Token.Covers, hcolumn, SourceLine.column, SourceLine.column]
        omega
      exact ⟨fun hover => eq_of_covers htoken htail hover hcovers, fun heq => heq ▸ hcovers⟩
    · -- what is called is an identifier
      obtain ⟨site, hsite, rfl⟩ := List.mem_map.mp hcall
      have hident := (List.mem_filter.mp hsite).2
      rw [Site.isCall, Token.isIdentifier, hkind] at hident
      cases hident

/-- Behind the number, letters and digits are one token; a semicolon is in the alphabet. -/
example : lineShapeFindings 1 (Token.ofLine ⟨1, "x = 12ab3(§);".toList, 0⟩) =
    [⟨⟨1, 7⟩, .invalidCharacter 'a'⟩] := by
  decide +kernel

end SourceLine

end ScriptLint
