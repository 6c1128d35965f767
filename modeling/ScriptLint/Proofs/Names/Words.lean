import Mathlib
import ScriptLint.Proofs.Names.Catalogues
import ScriptLint.Proofs.Reading.Case
import ScriptLint.Proofs.Reading.Numerals
import ScriptLint.Proofs.Reading.Reworded
import ScriptLint.Proofs.Reading.Tiling
import ScriptLint.Proofs.Settings.Demands

/-!
Words as names.

* `Token.read_of_valid`, `isValidIdentifier_iff`: the texts that could be identifiers are those
  that are read as one identifier or keyword.
* `SourceLine.IsWord`: a word that stands on its own in a line, outside literals;
  `SourceLine.IsWord.mem_ofLine`: it is one token.
* `Catalogue.contains_of_sameName`: the extra names of a catalogue, in any case of their letters.
* `Issue.Tells.exists_not_contains`: what is told to be undeclared or unknown is in no catalogue.
* `Analyzer.Recognises`, `identifiers_agree`: an extra name that is no keyword is read as an
  identifier, is built in, and is told neither of its calls nor of its uses.
-/

namespace ScriptLint

open Text (isBlank)

/-! ### Texts that could be identifiers -/

namespace Token

variable {column : ℕ} {c : Char} {text rest later : List Char} {token : Token}

/-- A valid identifier is as far read as it goes. -/
lemma extent_of_valid (h : isValidIdentifier (c :: rest) = true)
    (hlater : ∀ d, later.head? = some d → continuesIdentifier d = false) :
    extent c (rest ++ later) = (wordKind (c :: rest), rest.length) := by
  have hend : identifierLength later = 0 := by
    cases later with
    | nil => rfl
    | cons d more => rw [identifierLength, List.takeWhile_cons, hlater d rfl]; rfl
  rw [extent_word (Bool.and_eq_true_iff.mp h).1, identifierLength_append_of_valid h, hend,
    Nat.add_zero, List.take_left]

/-- Read alone, a valid identifier is one token. -/
lemma read_of_valid (h : isValidIdentifier text = true) (column : ℕ) :
    read column false text = [⟨wordKind text, text, column⟩] := by
  cases text with
  | nil => cases h
  | cons c rest =>
      have hextent : extent c (rest ++ []) = (wordKind (c :: rest), rest.length) :=
        extent_of_valid h fun d hd => by cases hd
      rw [List.append_nil] at hextent
      have hblank := (isPlain_of_isValidIdentifier h c List.mem_cons_self).not_blank
      have htoken : IsExtent ⟨wordKind (c :: rest), c :: rest, column⟩ c rest :=
        ⟨hblank, by rw [hextent], by rw [hextent, List.take_length]⟩
      exact htoken.read_lexeme column

/-- The characters of a word are those of a valid identifier. -/
lemma Spells.lexeme_valid {afterNumber : Bool} {kind : TokenKind} {lexeme : List Char}
    (h : Spells afterNumber later kind lexeme)
    (hkind : kind = .identifier ∨ ∃ keyword, kind = .keyword keyword) :
    isValidIdentifier lexeme = true := by
  cases h with
  | word _ valid => exact valid
  | _ => rcases hkind with hkind | ⟨_, hkind⟩ <;> cases hkind

/-- A word is an identifier or a keyword. -/
lemma wordKind_eq_or (word : List Char) :
    wordKind word = .identifier ∨ ∃ keyword, wordKind word = .keyword keyword :=
  (wordKind_cases word).imp_right fun ⟨keyword, hkind, _⟩ => ⟨keyword, hkind⟩

end Token

/-- **Identifiers**: a text could be an identifier exactly if the line with this text is one
token, an identifier or a keyword, that is spelled like the text. -/
theorem isValidIdentifier_iff (line : SourceLine) : Token.isValidIdentifier line.text = true ↔
    ∃ token, Token.ofLine line = [token] ∧
      (token.kind = .identifier ∨ ∃ keyword, token.kind = .keyword keyword) ∧
        token.lexeme = line.text := by
  constructor
  · intro h
    exact ⟨_, Token.read_of_valid h _, Token.wordKind_eq_or line.text, rfl⟩
  · rintro ⟨token, htokens, hkind, hlexeme⟩
    have hmem : token ∈ Token.read (line.column 0) false line.text := by
      rw [← Token.ofLine, htokens]
      exact List.mem_cons_self
    obtain ⟨_, _, _, _, _, hspells⟩ := (Token.reads_read _ _ _).exists_split hmem
    rw [← hlexeme]
    exact hspells.lexeme_valid hkind

/-! ### Words in a line -/

/-- A number ends with a digit. -/
lemma exists_last_digit {text : List Char} (h : IsNumeral text ∨ IsDoubleFraction text) :
    ∃ d, text.getLast? = some d ∧ d.isDigit = true := by
  have hdigits : ∀ (front : List Char) {digits : List Char}, IsDigits digits →
      ∃ d, (front ++ digits).getLast? = some d ∧ d.isDigit = true := by
    intro front digits h
    refine ⟨digits.getLast h.ne_nil, ?_, h.isDigit _ (List.getLast_mem h.ne_nil)⟩
    rw [List.getLast?_append, List.getLast?_eq_some_getLast h.ne_nil]
    rfl
  have hfraction : ∀ (front : List Char) {more : List Char}, IsFraction more →
      ∃ d, (front ++ more).getLast? = some d ∧ d.isDigit = true := by
    rintro front _ ⟨digits, h, rfl⟩
    rw [List.append_cons]
    exact hdigits _ h
  rcases h with (hwhole | hpoint | ⟨_, hpoint⟩) | ⟨_, _, _, hpoint, rfl⟩
  · exact hdigits [] hwhole
  · exact hfraction [] hpoint
  · exact hfraction _ hpoint
  · exact hfraction _ hpoint

namespace Token

/-- Outside literals, all characters of a token with a letter go on with it. -/
lemma Spells.continues_of_mem {afterNumber : Bool} {later lexeme : List Char} {kind : TokenKind}
    {c d : Char} (h : Spells afterNumber later kind lexeme)
    (hkind : ∀ closed, kind ≠ .literal closed) (hletter : startsIdentifier c = true)
    (hc : c ∈ lexeme) (hd : d ∈ lexeme) : continuesIdentifier d = true := by
  have hsingle : ∀ {e : Char}, lexeme = [e] → continuesIdentifier d = true := by
    rintro e rfl
    obtain rfl := List.mem_singleton.mp hc
    obtain rfl := List.mem_singleton.mp hd
    exact continuesIdentifier_of_starts hletter
  cases h with
  | word _ valid => exact continuesIdentifier_of_valid valid d hd
  | run _ valid => exact continuesIdentifier_of_valid valid d hd
  | number chars =>
      rcases chars c hc with hdigit | rfl
      · rw [isDigit_of_startsIdentifier hletter] at hdigit
        cases hdigit
      · cases hletter
  | literal _ _ => exact absurd rfl (hkind _)
  | delimiter delimiter => exact hsingle rfl
  | single single => exact hsingle rfl
  | pair pair =>
      simp only [List.mem_cons, List.not_mem_nil, or_false] at hc
      rw [pairOperator?_of_startsIdentifier (hc.imp (· ▸ hletter) (· ▸ hletter))] at pair
      cases pair
  | unknown _ _ _ => exact hsingle rfl

end Token

namespace SourceLine

variable {line : SourceLine} {before word after : List Char}

/-- The word stands in the line between texts that do not go on with it, and not in a
literal. -/
structure IsWord (line : SourceLine) (before word after : List Char) : Prop where
  text_eq : line.text = before ++ (word ++ after)
  not_literal : ∀ token ∈ Token.ofLine line, token.IsLiteral →
    ¬ token.Covers (line.column before.length)
  ends_before : ∀ c, before.getLast? = some c → Token.continuesIdentifier c = false
  ends_behind : ∀ c, after.head? = some c → Token.continuesIdentifier c = false

/-- A token that ends where a word starts ends with the character before it. -/
lemma getLast?_lexeme {token : Token} {text : List Char} (htoken : token ∈ Token.ofLine line)
    (htext : line.text = before ++ text)
    (hend : token.column + token.lexeme.length = line.column before.length) :
    token.lexeme.getLast? = before.getLast? := by
  obtain ⟨front, later, _, hsplit, hcolumn, hspells⟩ :=
    (Token.reads_read _ _ _).exists_split htoken
  have hlength : (front ++ token.lexeme).length = before.length := by
    rw [List.length_append]
    rw [column] at hend hcolumn
    omega
  have hbefore := (List.append_inj (hsplit.symm.trans htext) hlength).1
  rw [← hbefore, List.getLast?_append_of_ne_nil _ hspells.ne_nil]

/-- Where a word starts, so does a token. -/
lemma IsWord.exists_token {c : Char} {rest : List Char} (h : line.IsWord before (c :: rest) after)
    (hletter : Token.startsIdentifier c = true) :
    ∃ token ∈ Token.ofLine line, token.column = line.column before.length := by
  have hget : line.text[before.length]? = some c := by
    rw [h.text_eq, List.getElem?_append_right le_rfl, Nat.sub_self]
    rfl
  have hblank := (isPlain_of_continuesIdentifier (continuesIdentifier_of_starts hletter)).not_blank
  obtain ⟨token, htoken, hcovers⟩ := (tiles_ofLine line).exists_covers _ hget hblank
  refine ⟨token, htoken, ?_⟩
  have hkind : ∀ closed, token.kind ≠ .literal closed := fun closed hkind =>
    h.not_literal token htoken ⟨closed, hkind⟩ hcovers
  obtain ⟨front, later, _, hsplit, hcolumn, hspells⟩ :=
    (Token.reads_read _ _ _).exists_split htoken
  -- what the token stands over is in it
  have hmem : ∀ {index : ℕ} {d : Char}, front.length ≤ index → index ≤ before.length →
      line.text[index]? = some d → d ∈ token.lexeme := by
    intro index d hle hlast hget
    have hend := hcovers.2
    rw [hcolumn, column, column] at hend
    rw [hsplit, List.append_assoc, List.getElem?_append_right hle,
      List.getElem?_append_left (by omega)] at hget
    exact List.mem_of_getElem? hget
  have hle : front.length ≤ before.length := by
    have hstart := hcovers.1
    rw [hcolumn, column, column] at hstart
    omega
  rcases hle.eq_or_lt with heq | hlt
  · rw [hcolumn, heq, column, column]
    omega
  · -- otherwise the token goes on from the character before the word
    have hne : before ≠ [] := List.ne_nil_of_length_pos (Nat.zero_lt_of_lt hlt)
    have hlast : line.text[before.length - 1]? = some (before.getLast hne) := by
      rw [h.text_eq, List.getElem?_append_left (by omega), ← List.getLast?_eq_getElem?,
        List.getLast?_eq_some_getLast hne]
    have hcontinues := hspells.continues_of_mem hkind hletter (hmem hle le_rfl hget)
      (hmem (by omega) (by omega) hlast)
    rw [h.ends_before _ (List.getLast?_eq_some_getLast hne)] at hcontinues
    cases hcontinues

/-- **Words**: a valid identifier that stands on its own outside literals is one token. -/
theorem IsWord.mem_ofLine (h : line.IsWord before word after)
    (hvalid : Token.isValidIdentifier word = true) :
    ⟨Token.wordKind word, word, line.column before.length⟩ ∈ Token.ofLine line := by
  obtain ⟨c, rest, rfl⟩ : ∃ c rest, word = c :: rest :=
    List.exists_cons_of_ne_nil (by rintro rfl; cases hvalid)
  obtain ⟨token, htoken, hcolumn⟩ := h.exists_token (Bool.and_eq_true_iff.mp hvalid).1
  obtain ⟨front, d, later, hsplit, hplace, hstart⟩ := Token.exists_start_ofLine htoken
  have hlength : before.length = front.length := by
    rw [column] at hcolumn hplace
    omega
  obtain ⟨rfl, hrest⟩ := List.append_inj (h.text_eq.symm.trans hsplit) hlength
  obtain ⟨hd, hlater⟩ : c = d ∧ rest ++ after = later := List.cons.inj hrest
  rw [← hd, ← hlater] at hstart
  rcases hstart with hextent | htail
  · have hread := Token.extent_of_valid hvalid h.ends_behind
    have hkind : token.kind = Token.wordKind (c :: rest) := by rw [hextent.kind_eq, hread]
    have hlexeme : token.lexeme = c :: rest := by rw [hextent.lexeme_eq, hread, List.take_left]
    rwa [← hkind, ← hlexeme, ← hcolumn]
  · -- no numeral ends right before the word
    obtain ⟨numeral, hnumeral, hnumber, hend⟩ := htail.exists_numeral
    obtain ⟨_, _, _, _, _, hstarts | hletters⟩ := Token.exists_start_ofLine hnumeral
    · obtain ⟨d, hlast, hdigit⟩ := exists_last_digit (hstarts.number hnumber).1
      rw [getLast?_lexeme hnumeral h.text_eq (hend.trans hcolumn)] at hlast
      have hnot := h.ends_before d hlast
      simp [Token.continuesIdentifier, Char.isAlphanum, hdigit] at hnot
    · exact absurd hnumber hletters.kind_ne_number

end SourceLine

/-! ### Extra names -/

section Extra

variable {catalogue : Catalogue} {name : String} {word : List Char}

/-- The case of the letters of a text does not matter to whether it could be an identifier. -/
lemma Token.isValidIdentifier_fold (text : List Char) :
    isValidIdentifier (Text.fold text) = isValidIdentifier text := by
  cases text with
  | nil => rfl
  | cons c rest =>
      have hall : (Text.fold rest).all continuesIdentifier = rest.all continuesIdentifier := by
        rw [Text.fold, List.all_map]
        exact congrArg rest.all (funext continuesIdentifier_toLower)
      rw [Text.fold_cons, isValidIdentifier, startsIdentifier_toLower, hall, isValidIdentifier]

/-- The extra names of a catalogue are in it, in any case of their letters. -/
lemma Catalogue.contains_of_sameName (h : name ∈ catalogue.extra)
    (hname : Text.sameName name.toList word = true) : catalogue.contains word = true := by
  rw [contains, Bool.or_eq_true, Builtin.isNamedIn, List.any_eq_true]
  exact .inr ⟨name, h, hname⟩

/-- What is told on a script tells of no name of the catalogue that it is undeclared or
unknown. -/
lemma remains_of_mem_allFindings {lines : List TokenLine} {finding : Finding}
    (h : finding ∈ allFindings catalogue lines) : finding.remains catalogue = true := by
  rw [allFindings_eq, List.mem_append, List.mem_append] at h
  rcases h with hlines | hunclosed | hunused
  · exact remains_of_mem_overLines hlines
  · obtain ⟨frame, _, rfl⟩ := List.mem_map.mp hunclosed
    rfl
  · obtain ⟨entry, _, rfl⟩ := List.mem_map.mp hunused
    rfl

/-- A name that is told to be undeclared or unknown is spelled so that the catalogue does not
hold it. -/
lemma Issue.Tells.exists_not_contains {settings : Settings} {lines : List TokenLine}
    {issue : Issue} {make : String → Problem}
    (hmake : make = .undeclared ∨ make = .unknownFunction)
    (hissue : issue ∈ (verdictOn settings lines).issues) (h : issue.Tells make name) :
    ∃ spelled : String, Text.sameName name.toList spelled.toList = true ∧
      settings.catalogue.contains spelled.toList = false := by
  obtain ⟨finding, hfinding, rfl⟩ := mem_issues_verdictOn.mp hissue
  obtain ⟨spelled, hproblem, hname⟩ := Issue.tells_ofFinding_iff.mp h
  have hremains := remains_of_mem_allFindings hfinding
  rw [Finding.remains, hproblem] at hremains
  refine ⟨spelled, hname, ?_⟩
  rcases hmake with rfl | rfl <;> simpa using hremains

/-- The analyzer recognises the word as a built-in name. -/
structure Analyzer.Recognises (analyzer : Analyzer) (word : List Char) : Prop where
  /-- A line with this text is one token. -/
  alone : ∀ number indent,
    Token.ofLine ⟨number, word, indent⟩ = [⟨.identifier, word, indent + 1⟩]
  /-- So is the word where it stands in a line. -/
  within : ∀ {line : SourceLine} {before after : List Char}, line.IsWord before word after →
    ⟨.identifier, word, line.column before.length⟩ ∈ Token.ofLine line
  builtin : analyzer.settings.catalogue.contains word = true
  /-- No issue tells that it is unknown or undeclared, in any case of its letters. -/
  known : ∀ source : String, ∀ issue ∈ (analyzer.analyze source).issues,
    ¬ issue.Tells .unknownFunction (String.ofList word) ∧
      ¬ issue.Tells .undeclared (String.ofList word)

/-- **Identifiers and names**: a text could be an identifier exactly if it is read as one
identifier or keyword, and an extra name of an analyzer that is no keyword is recognised, in
any case of its letters. -/
theorem identifiers_agree :
    (∀ line : SourceLine, Token.isValidIdentifier line.text = true ↔
      ∃ token, Token.ofLine line = [token] ∧
        (token.kind = .identifier ∨ ∃ keyword, token.kind = .keyword keyword) ∧
          token.lexeme = line.text) ∧
    ∀ analyzer : Analyzer, ∀ name ∈ analyzer.settings.extraBuiltins,
      Keyword.ofWord? name.toList = none →
        ∀ word, Text.sameName name.toList word = true → analyzer.Recognises word := by
  refine ⟨isValidIdentifier_iff, fun analyzer name hextra hkeyword word hname => ?_⟩
  have hfold : Text.fold name.toList = Text.fold word := Text.sameName_iff.mp hname
  have hvalid : Token.isValidIdentifier word = true := by
    rw [← Token.isValidIdentifier_fold, ← hfold, Token.isValidIdentifier_fold]
    exact Settings.isValidIdentifier_extra analyzer.accepted hextra
  have hkind : Token.wordKind word = .identifier := by
    rw [← Token.wordKind_fold, ← hfold, Token.wordKind_fold, Token.wordKind, hkeyword]
  have hcontains : analyzer.settings.catalogue.contains word = true :=
    Catalogue.contains_of_sameName hextra hname
  -- so is every other spelling of the name
  have hknown : ∀ {make : String → Problem}, make = .undeclared ∨ make = .unknownFunction →
      ∀ {source : String} {issue : Issue}, issue ∈ (analyzer.analyze source).issues →
        ¬ issue.Tells make (String.ofList word) := by
    intro make hmake source issue hissue htells
    obtain ⟨spelled, hsame, hnot⟩ := htells.exists_not_contains hmake hissue
    rw [String.toList_ofList, Text.sameName_iff, ← hfold, ← Text.sameName_iff] at hsame
    have hspelled : analyzer.settings.catalogue.contains spelled.toList = true :=
      Catalogue.contains_of_sameName hextra hsame
    rw [hspelled] at hnot
    cases hnot
  refine ⟨fun number indent => ?_, fun h => ?_, hcontains,
    fun source issue hissue => ⟨hknown (.inr rfl) hissue, hknown (.inl rfl) hissue⟩⟩
  · rw [← hkind]
    exact Token.read_of_valid hvalid _
  · rw [← hkind]
    exact h.mem_ofLine hvalid

/-- An extra name in capitals, recognised in mixed case. -/
theorem recognises_mixed_case :
    (Settings.standard.withBuiltins ["VWAP"]).violation? = none ∧
      Keyword.ofWord? "VWAP".toList = none ∧
      Text.sameName "VWAP".toList "vWap".toList = true ∧
      (Analyzer.standard.withBuiltins ["VWAP"] (by decide)).Recognises "vWap".toList :=
  ⟨by decide +kernel, by decide, by decide,
    identifiers_agree.2 (Analyzer.standard.withBuiltins ["VWAP"] (by decide)) "VWAP"
      List.mem_cons_self (by decide) _ (by decide)⟩

end Extra

end ScriptLint
