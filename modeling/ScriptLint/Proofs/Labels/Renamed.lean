import Mathlib
import ScriptLint.Proofs.Labels.Spelling
import ScriptLint.Proofs.Reading.Reworded

/-!
Scripts whose own names are others.

* `Catalogue.IsFree`, `Renaming`: the names that a script can give a meaning, and a renaming of
  them that keeps their lengths and makes no two of them one.
* `Renaming.script`: the script with the new name in the place of each identifier.
* `Renaming.ofSource_script`: its tokens are those of the script under their new names.
* `analyze_renamed`: its verdict is that on the script with the names in the messages renamed.
-/

namespace ScriptLint

open Text (Within)

/-! ### Free names -/

/-- An identifier that is no keyword, no built-in name and no word for a value, in any case of its
letters. -/
structure Catalogue.IsFree (catalogue : Catalogue) (name : List Char) : Prop where
  valid : Token.isValidIdentifier name = true
  not_reserved : catalogue.reserves name = false
  not_literal : Builtin.isLiteral name = false

instance (catalogue : Catalogue) (name : List Char) : Decidable (catalogue.IsFree name) :=
  decidable_of_iff (Token.isValidIdentifier name = true ∧ catalogue.reserves name = false ∧
      Builtin.isLiteral name = false)
    ⟨fun h => ⟨h.1, h.2.1, h.2.2⟩, fun h => ⟨h.valid, h.not_reserved, h.not_literal⟩⟩

/-- Other free names for the free names, as long as they are, and no two of them the same. -/
structure Renaming (catalogue : Catalogue) where
  /-- The new name of a free name. -/
  name : List Char → List Char
  isFree : ∀ {old}, catalogue.IsFree old → catalogue.IsFree (name old)
  length_eq : ∀ {old}, catalogue.IsFree old → (name old).length = old.length
  injective : ∀ {old other}, catalogue.IsFree old → catalogue.IsFree other →
    name old = name other → old = other

/-- A free name is no keyword. -/
lemma Catalogue.IsFree.wordKind_eq {catalogue : Catalogue} {name : List Char}
    (h : catalogue.IsFree name) : Token.wordKind name = .identifier := by
  have hreserved := h.not_reserved
  rw [Catalogue.reserves, Bool.or_eq_false_iff, Option.isSome_eq_false_iff,
    Option.isNone_iff_eq_none] at hreserved
  rw [Token.wordKind, hreserved.1]

namespace Renaming

variable {catalogue : Catalogue} (names : Renaming catalogue)

/-- The new name of a word; a word that is not free stays. -/
def word (old : List Char) : List Char :=
  if catalogue.IsFree old then names.name old else old

lemma word_of_isFree {old : List Char} (h : catalogue.IsFree old) :
    names.word old = names.name old := if_pos h

lemma word_of_not_isFree {old : List Char} (h : ¬catalogue.IsFree old) :
    names.word old = old := if_neg h

lemma isFree_word_iff (old : List Char) :
    catalogue.IsFree (names.word old) ↔ catalogue.IsFree old := by
  by_cases h : catalogue.IsFree old
  · rw [names.word_of_isFree h]
    exact iff_of_true (names.isFree h) h
  · rw [names.word_of_not_isFree h]

/-- What is the same for all free names is the same for the new name of a word. -/
lemma congr_word {α : Type} {g : List Char → α} {a : α}
    (hg : ∀ name, catalogue.IsFree name → g name = a) (old : List Char) :
    g (names.word old) = g old := by
  by_cases h : catalogue.IsFree old
  · rw [names.word_of_isFree h, hg _ (names.isFree h), hg old h]
  · rw [names.word_of_not_isFree h]

/-- New names are as long as the old ones, and no keywords. -/
lemma keepsWords : Token.KeepsWords names.word where
  length_eq old := by
    by_cases h : catalogue.IsFree old
    · rw [names.word_of_isFree h, names.length_eq h]
    · rw [names.word_of_not_isFree h]
  isValidIdentifier := names.congr_word fun _ h => h.valid
  wordKind := names.congr_word fun _ h => h.wordKind_eq

/-- No two words get the same name. -/
lemma word_injective : Function.Injective names.word := by
  intro old other heq
  have hfree : catalogue.IsFree old ↔ catalogue.IsFree other := by
    rw [← names.isFree_word_iff, heq, names.isFree_word_iff]
  by_cases h : catalogue.IsFree old
  · rw [names.word_of_isFree h, names.word_of_isFree (hfree.mp h)] at heq
    exact names.injective h (hfree.mp h) heq
  · rwa [names.word_of_not_isFree h, names.word_of_not_isFree (mt hfree.mpr h)] at heq

/-- The new names, at the old places. -/
def labels : Relabelling :=
  ⟨names.word, id, fun _ => id⟩

/-- The new names mean what the old ones mean. -/
lemma faithful : names.labels.Faithful catalogue where
  injective := names.word_injective
  contains := names.congr_word fun _ h => (Bool.or_eq_false_iff.mp h.not_reserved).2
  reserves := names.congr_word fun _ h => h.not_reserved
  isLiteral := names.congr_word fun _ h => h.not_literal
  sameTrue := names.congr_word fun name h => by
    have hnot := List.any_eq_false.mp h.not_literal "true" (by decide)
    rw [Bool.eq_false_iff, ne_eq, Text.sameName_iff, eq_comm, ← Text.sameName_iff]
    exact hnot

/-- The renamed tokens have the new names for labels. -/
lemma relabels (number : ℕ) : names.labels.Relabels number (Token.renamed names.word) where
  kind := Token.renamed_kind
  column := Token.renamed_column
  name token hkind := by rw [Token.renamed_of_identifier hkind]; rfl
  numeral token hkind := by rw [Token.renamed_of_ne (by rw [hkind]; exact TokenKind.noConfusion)]

end Renaming

/-! ### Identifier characters -/

namespace Token

/-- One letter for all identifier characters. -/
def blur (c : Char) : Char :=
  if continuesIdentifier c then 'a' else c

lemma blur_eq {c d : Char} (hc : continuesIdentifier c = true)
    (hd : continuesIdentifier d = true) : blur c = blur d := by
  rw [blur, blur, if_pos hc, if_pos hd]

lemma within_blur : Within continuesIdentifier blur := by
  intro c
  by_cases hc : continuesIdentifier c = true
  · rw [blur, if_pos hc]
    exact .inr ⟨hc, by decide⟩
  · exact .inl (if_neg hc)

lemma inert_continuesIdentifier : Inert continuesIdentifier where
  not_blank _ h := (isPlain_of_continuesIdentifier h).not_blank
  not_quote _ h := (isPlain_of_continuesIdentifier h).not_quote
  not_escape := by decide

lemma valid_of_identifier {line : SourceLine} {token : Token} (htoken : token ∈ ofLine line)
    (hkind : token.kind = .identifier) : isValidIdentifier token.lexeme = true := by
  obtain ⟨_, _, _, _, _, hspells⟩ := (reads_read _ _ _).exists_split htoken
  rw [hkind] at hspells
  exact hspells.of_identifier.2.1

end Token

namespace SourceLine

variable {line other : SourceLine} {index : ℕ} {c d : Char}

/-- An identifier character of a source line stands in the physical line. -/
lemma LiesIn.physical_char {markers : Markers} {inComment : Bool} {physical : List Char}
    (h : line.LiesIn markers inComment physical)
    (hc : line.text[index]? = some c) (hword : Token.continuesIdentifier c = true) :
    physical[line.indent + index]? = some c := by
  obtain ⟨hlt, rfl⟩ := List.getElem?_eq_some_iff.mp hc
  obtain ⟨_, _, _, ⟨-, hspace⟩ | ⟨-, hphysical⟩⟩ := h.exists_part hlt
  · rw [Option.some.inj (hc.symm.trans hspace)] at hword
    cases hword
  · rw [hphysical, hc]

/-- Lines that agree but for identifier characters. -/
lemma eq_or_words (hmapped : other.mapped Token.blur = line.mapped Token.blur)
    (hc : line.text[index]? = some c) (hd : other.text[index]? = some d) :
    d = c ∨ (Token.continuesIdentifier d = true ∧ Token.continuesIdentifier c = true) := by
  have hget := congrArg (fun line : SourceLine => line.text[index]?) hmapped
  simp only [SourceLine.mapped, List.getElem?_map, hc, hd, Option.map_some,
    Option.some.injEq] at hget
  exact Token.within_blur.eq_or hget

end SourceLine

/-! ### Renamed scripts -/

/-- The identifier that stands over a place of a script. -/
def identifierOver? (lines : List TokenLine) (place : Position) : Option Token :=
  ((lines.filter fun line => line.number == place.line).flatMap TokenLine.tokens).find?
    fun token => token.kind == .identifier && decide (token.Covers place.column)

section Over

variable {markers : Markers} {source : List Char} {line : TokenLine} {token : Token} {column : ℕ}

lemma identifierOver?_spec {lines : List TokenLine} {place : Position}
    (h : identifierOver? lines place = some token) :
    ∃ line ∈ lines, line.number = place.line ∧ token ∈ line.tokens ∧
      token.kind = .identifier ∧ token.Covers place.column := by
  have hmem := List.mem_of_find?_eq_some h
  have hover := List.find?_some h
  obtain ⟨line, hline, htoken⟩ := List.mem_flatMap.mp hmem
  obtain ⟨hline, hnumber⟩ := List.mem_filter.mp hline
  rw [Bool.and_eq_true, decide_eq_true_eq, beq_iff_eq] at hover
  exact ⟨line, hline, beq_iff_eq.mp hnumber, htoken, hover⟩

/-- Where a token stands, the identifier there is this token, if it is one. -/
lemma identifierOver?_eq (hline : line ∈ TokenLine.ofSource markers source)
    (htoken : token ∈ line.tokens) (hcovers : token.Covers column) :
    identifierOver? (TokenLine.ofSource markers source) ⟨line.number, column⟩ =
      if token.kind = .identifier then some token else none := by
  have honly : ∀ other, identifierOver? (TokenLine.ofSource markers source)
      ⟨line.number, column⟩ = some other → other = token := by
    intro other hother
    obtain ⟨found, hfound, hnumber, hmem, -, hover⟩ := identifierOver?_spec hother
    obtain rfl := TokenLine.eq_of_number hline hfound hnumber
    obtain ⟨sourceLine, -, rfl⟩ := List.mem_map.mp hfound
    exact (Token.reads_read _ _ _).eq_of_covers hmem htoken hover hcovers
  cases hover : identifierOver? (TokenLine.ofSource markers source) ⟨line.number, column⟩ with
  | none =>
      refine (if_neg fun hkind => ?_).symm
      refine List.find?_eq_none.mp hover token ?_ (by simp [hkind, hcovers])
      exact List.mem_flatMap.mpr ⟨line, List.mem_filter.mpr ⟨hline, beq_self_eq_true _⟩, htoken⟩
  | some other =>
      obtain rfl := honly other hover
      obtain ⟨-, -, -, -, hkind, -⟩ := identifierOver?_spec hover
      rw [if_pos hkind]

end Over

namespace Renaming

variable {catalogue : Catalogue} (names : Renaming catalogue)

/-- The character at a place of the renamed script, where `c` stands in the script: one of the new
name, if an identifier stands over the place. -/
def charAt (lines : List TokenLine) (place : Position) (c : Char) : Char :=
  match identifierOver? lines place with
  | some token => (names.word token.lexeme).getD (place.column - token.column) c
  | none => c

/-- The script with the new name in the place of each identifier. -/
def script (markers : Markers) (source : List Char) : List Char :=
  source.mapIdx fun index c =>
    if Token.continuesIdentifier c then
      names.charAt (TokenLine.ofSource markers source) (.behind (source.take index)) c
    else c

section Script

variable {markers : Markers} {source : List Char} {index : ℕ} {c d : Char}

lemma getElem?_script (hc : source[index]? = some c)
    (hword : Token.continuesIdentifier c = true) :
    (names.script markers source)[index]? = some
      (names.charAt (TokenLine.ofSource markers source) (.behind (source.take index)) c) := by
  rw [script, List.getElem?_mapIdx, hc, Option.map_some, if_pos hword]

/-- An identifier character is replaced by one. -/
lemma continuesIdentifier_charAt (place : Position) (hword : Token.continuesIdentifier c = true) :
    Token.continuesIdentifier
      (names.charAt (TokenLine.ofSource markers source) place c) = true := by
  rw [charAt]
  cases hover : identifierOver? (TokenLine.ofSource markers source) place with
  | none => exact hword
  | some token =>
      obtain ⟨line, hline, -, htoken, hkind, -⟩ := identifierOver?_spec hover
      obtain ⟨sourceLine, -, rfl⟩ := List.mem_map.mp hline
      have hvalid := Token.valid_of_identifier htoken hkind
      rw [← names.keepsWords.isValidIdentifier] at hvalid
      dsimp only
      rw [List.getD_eq_getElem?_getD]
      cases hget : (names.word token.lexeme)[place.column - token.column]? with
      | none => exact hword
      | some d => exact Token.continuesIdentifier_of_valid hvalid d (List.mem_of_getElem? hget)

/-- Only characters that an identifier stands over change. -/
lemma exists_identifier_of_ne
    (hne : (names.script markers source)[index]? ≠ source[index]?) :
    ∃ token, identifierOver? (TokenLine.ofSource markers source)
      (.behind (source.take index)) = some token := by
  refine Option.ne_none_iff_exists'.mp fun hnone => hne ?_
  rw [script, List.getElem?_mapIdx]
  cases source[index]? with
  | none => rfl
  | some c => rw [Option.map_some, charAt, hnone, ite_self]

/-- Over a token, the characters are those of the renamed token. -/
lemma getElem?_renamed {line : TokenLine} {token : Token} {offset : ℕ}
    (hline : line ∈ TokenLine.ofSource markers source) (htoken : token ∈ line.tokens)
    (hc : token.lexeme[offset]? = some c) :
    (token.renamed names.word).lexeme[offset]? = some (names.charAt
      (TokenLine.ofSource markers source) ⟨line.number, token.column + offset⟩ c) := by
  have hlt := (List.getElem?_eq_some_iff.mp hc).1
  have hcovers : token.Covers (token.column + offset) :=
    ⟨Nat.le_add_right _ _, Nat.add_lt_add_left hlt _⟩
  rw [charAt, identifierOver?_eq hline htoken hcovers]
  by_cases hkind : token.kind = .identifier
  · have hlt' : offset < (names.word token.lexeme).length := by
      rw [names.keepsWords.length_eq]
      exact hlt
    rw [if_pos hkind, Token.renamed_of_identifier hkind]
    dsimp only
    rw [Nat.add_sub_cancel_left, List.getD_eq_getElem _ _ hlt', List.getElem?_eq_getElem hlt']
  · rw [if_neg hkind, Token.renamed_of_ne hkind, hc]

/-- The renamed script differs from the script in identifier characters only. -/
lemma map_blur_script :
    (names.script markers source).map Token.blur = source.map Token.blur := by
  refine List.ext_getElem? fun index => ?_
  rw [List.getElem?_map, List.getElem?_map, script, List.getElem?_mapIdx]
  cases source[index]? with
  | none => rfl
  | some c =>
      simp only [Option.map_some]
      split_ifs with hword
      · rw [Token.blur_eq (names.continuesIdentifier_charAt _ hword) hword]
      · rfl

end Script

/-! #### Lines -/

section Lines

variable {markers : Markers} {source : List Char} {line other : SourceLine} {index : ℕ}
  {c d : Char}
  (hline : line ∈ SourceLine.scan markers source)
  (hother : other ∈ SourceLine.scan markers (names.script markers source))
  (hmapped : other.mapped Token.blur = line.mapped Token.blur)

include hline hother hmapped

/-- The characters of the lines of the renamed script. -/
lemma text_char (hc : line.text[index]? = some c) (hd : other.text[index]? = some d)
    (hword : Token.continuesIdentifier c = true) :
    d = names.charAt (TokenLine.ofSource markers source) ⟨line.number, line.column index⟩ c := by
  obtain ⟨hnumber, -, hindent⟩ := SourceLine.mk.inj hmapped
  have hword' : Token.continuesIdentifier d = true := by
    rcases SourceLine.eq_or_words hmapped hc hd with rfl | hboth
    · exact hword
    · exact hboth.1
  obtain ⟨place, physical, hphysical, hplace, hlies⟩ :=
    SourceLine.exists_liesIn_of_scanFrom hline
  obtain ⟨place', physical', hphysical', hplace', hlies'⟩ :=
    SourceLine.exists_liesIn_of_scanFrom hother
  obtain rfl : place' = place := by omega
  have hstands := hlies.physical_char hc hword
  have hstands' := hlies'.physical_char hd hword'
  rw [hindent] at hstands'
  obtain ⟨moment, hmoment, hmoment', hbehind⟩ := exists_moment Token.within_blur
    Token.inert_continuesIdentifier.not_blank names.map_blur_script.symm hphysical hphysical'
    hstands hstands' hword hword'
  rw [names.getElem?_script hmoment hword, hbehind] at hmoment'
  rw [hplace, Nat.add_comm 1 place', SourceLine.column]
  exact (Option.some.inj hmoment').symm

/-- The renamed tokens of a line stand in the line of the renamed script. -/
lemma standIn :
    Token.StandIn names.word (line.column 0) (Token.ofLine line) other.text := by
  intro token htoken
  obtain ⟨start, hcolumn, hle, hget, -⟩ := SourceLine.LiesIn.exists_offset htoken
  have hstart : token.column - line.column 0 = start := by
    rw [hcolumn, SourceLine.column, SourceLine.column]
    omega
  have hlength : (token.renamed names.word).lexeme.length = token.lexeme.length :=
    Token.length_renamed names.keepsWords token
  obtain ⟨-, htext, -⟩ := SourceLine.mk.inj hmapped
  have hlengths : other.text.length = line.text.length := by
    simpa only [List.length_map] using congrArg List.length htext
  rw [hstart, List.prefix_iff_getElem?]
  intro offset hoffset
  have hlt : offset < token.lexeme.length := hlength ▸ hoffset
  have hc := hget offset hlt
  have hd : other.text[start + offset]? = some other.text[start + offset] :=
    List.getElem?_eq_getElem (by omega)
  have hrenamed := names.getElem?_renamed (List.mem_map_of_mem hline) htoken
    (List.getElem?_eq_getElem hlt)
  have hplace : line.column (start + offset) = token.column + offset := by
    rw [hcolumn, SourceLine.column, SourceLine.column]
    omega
  rw [List.getElem?_drop, hd, ← List.getElem?_eq_getElem hoffset]
  by_cases hword : Token.continuesIdentifier token.lexeme[offset] = true
  · rw [names.text_char hline hother hmapped hc hd hword, hplace, hrenamed]
  · have hsame := (SourceLine.eq_or_words hmapped hc hd).resolve_right fun hboth => hword hboth.2
    have hkind : token.kind ≠ .identifier := fun hkind =>
      hword (Token.continuesIdentifier_of_valid (Token.valid_of_identifier htoken hkind) _
        (List.getElem_mem hlt))
    rw [Token.renamed_of_ne hkind, hsame, List.getElem?_eq_getElem hlt]

/-- The tokens of a line of the renamed script. -/
lemma ofLine_eq : Token.ofLine other = (Token.ofLine line).map (Token.renamed names.word) := by
  obtain ⟨-, htext, hindent⟩ := SourceLine.mk.inj hmapped
  have hcolumn : other.column 0 = line.column 0 := by
    rw [SourceLine.column, hindent, SourceLine.column]
  rw [Token.ofLine, hcolumn]
  exact (Token.read_renamed Token.within_blur names.keepsWords htext
    (names.standIn hline hother hmapped)).2

end Lines

/-! #### Tokens -/

/-- **The tokens** of the renamed script are those of the script under their new names. -/
theorem ofSource_script {markers : Markers} (hmarkers : markers.Free Token.continuesIdentifier)
    (source : List Char) : TokenLine.ofSource markers (names.script markers source) =
      (TokenLine.ofSource markers source).map
        (TokenLine.relabelled names.labels fun _ => Token.renamed names.word) := by
  have hscan : (SourceLine.scan markers (names.script markers source)).map
      (SourceLine.mapped Token.blur) =
        (SourceLine.scan markers source).map (SourceLine.mapped Token.blur) := by
    rw [← SourceLine.scan_map Token.within_blur Token.inert_continuesIdentifier hmarkers,
      names.map_blur_script,
      SourceLine.scan_map Token.within_blur Token.inert_continuesIdentifier hmarkers]
  rw [TokenLine.ofSource, TokenLine.ofSource, List.map_map]
  refine (map_eq_of_forall₂ ((forall₂_of_map_eq hscan).imp ?_)).symm
  rintro line other ⟨hmapped, hline, hother⟩
  rw [Function.comp_apply, TokenLine.relabelled, names.ofLine_eq hline hother hmapped]
  exact congrArg (TokenLine.mk · _) (SourceLine.mk.inj hmapped).1.symm

end Renaming

/-! ### Verdicts -/

/-- The new issue is of the same kind as the old one, at the same place. -/
structure Issue.Alike (old new : Issue) : Prop where
  place : new.place = old.place
  severity : new.severity = old.severity
  code : new.code = old.code

/-- An issue under other names is of the same kind, at the same place. -/
lemma Issue.Relabelled.alike {catalogue : Catalogue} {names : Renaming catalogue}
    {old new : Issue} (h : old.Relabelled names.labels new) : old.Alike new := by
  obtain ⟨finding, rfl, rfl⟩ := h
  have hcode : (finding.problem.relabelled names.labels).code = finding.problem.code :=
    Problem.code_relabelled finding.problem
  exact ⟨rfl, congrArg IssueCode.severity hcode, hcode⟩

/-- The verdict on the renamed script, for any settings whose markers hold no identifier
characters. -/
theorem verdictOn_script (settings : Settings) (names : Renaming settings.catalogue)
    (hmarkers : settings.markers.Free Token.continuesIdentifier) (source : List Char) :
    (verdictOn settings (TokenLine.ofSource settings.markers source)).Relabelled names.labels
      (verdictOn settings
        (TokenLine.ofSource settings.markers (names.script settings.markers source))) := by
  rw [names.ofSource_script hmarkers]
  exact verdictOn_relabelled settings names.faithful names.relabels _

/-- The script under its new names, as the standard analyzer reads it. -/
def Renaming.rename (names : Renaming .base) (source : String) : String :=
  String.ofList (names.script Analyzer.standard.settings.markers source.toList)

/-- **Names**: with other names for the free names of a script, in the place of its identifiers and
nowhere else, the standard analyzer reads the same tokens under the new names and comes to the same
verdict, with the new names in the messages; in particular it tells issues of the same kinds at the
same places in the same order. -/
theorem analyze_renamed (names : Renaming .base) (source : String) :
    (∀ index, (names.rename source).toList[index]? ≠ source.toList[index]? →
      ∃ token, identifierOver? (TokenLine.ofSource Analyzer.standard.settings.markers source.toList)
        (.behind (source.toList.take index)) = some token) ∧
    TokenLine.ofSource Analyzer.standard.settings.markers (names.rename source).toList =
      (TokenLine.ofSource Analyzer.standard.settings.markers source.toList).map
        (TokenLine.relabelled names.labels fun _ => Token.renamed names.word) ∧
    (Analyzer.standard.analyze source).Relabelled names.labels
      (Analyzer.standard.analyze (names.rename source)) ∧
    List.Forall₂ Issue.Alike (Analyzer.standard.analyze source).issues
      (Analyzer.standard.analyze (names.rename source)).issues := by
  have hmarkers : Analyzer.standard.settings.markers.Free Token.continuesIdentifier := by decide
  have htext : (names.rename source).toList =
      names.script Analyzer.standard.settings.markers source.toList := String.toList_ofList
  have hverdict : (Analyzer.standard.analyze source).Relabelled names.labels
      (Analyzer.standard.analyze (names.rename source)) := by
    rw [Analyzer.analyze, Analyzer.analyze, Analyzer.run, Analyzer.run, htext]
    exact verdictOn_script Analyzer.standard.settings names hmarkers source.toList
  rw [htext]
  refine ⟨fun _ => names.exists_identifier_of_ne, names.ofSource_script hmarkers _, hverdict, ?_⟩
  exact List.rel_append (hverdict.errors.imp fun _ _ h => h.alike)
    (hverdict.warnings.imp fun _ _ h => h.alike)

/-- Two free names of one length change places. -/
def Renaming.swap {catalogue : Catalogue} (first second : List Char)
    (hfirst : catalogue.IsFree first) (hsecond : catalogue.IsFree second)
    (hlength : first.length = second.length) : Renaming catalogue where
  name := Equiv.swap first second
  isFree := by
    intro old hold
    rw [Equiv.swap_apply_def]
    split_ifs
    · exact hsecond
    · exact hfirst
    · exact hold
  length_eq := by
    intro old _
    rw [Equiv.swap_apply_def]
    split_ifs with hold hother
    · rw [hold, hlength]
    · rw [hother, hlength]
    · rfl
  injective _ _ heq := (Equiv.swap first second).injective heq

/-- The names `foo` and `bar` change places. -/
def Renaming.fooBar : Renaming .base :=
  .swap "foo".toList "bar".toList (by decide) (by decide) rfl

/-- A script that declares and uses one of the names and calls the other, before and after. The name
in the comment stays, and the call is told unknown under the new name. -/
theorem analyze_renamed_fooBar :
    Renaming.fooBar.rename "var foo = 1 // foo\nbar(foo, quux)" =
        "var bar = 1 // foo\nfoo(bar, quux)" ∧
      (Analyzer.standard.analyze "var foo = 1 // foo\nbar(foo, quux)").Relabelled
        Renaming.fooBar.labels
        (Analyzer.standard.analyze "var bar = 1 // foo\nfoo(bar, quux)") ∧
      (Analyzer.standard.analyze "var foo = 1 // foo\nbar(foo, quux)").issues =
        [.ofFinding ⟨⟨2, 10⟩, .undeclared "quux"⟩,
          .ofFinding ⟨⟨2, 1⟩, .unknownFunction "bar"⟩] ∧
      (Analyzer.standard.analyze "var bar = 1 // foo\nfoo(bar, quux)").issues =
        [.ofFinding ⟨⟨2, 10⟩, .undeclared "quux"⟩,
          .ofFinding ⟨⟨2, 1⟩, .unknownFunction "foo"⟩] := by
  have hrename : Renaming.fooBar.rename "var foo = 1 // foo\nbar(foo, quux)" =
      "var bar = 1 // foo\nfoo(bar, quux)" := by decide +kernel
  have hverdict :=
    (analyze_renamed Renaming.fooBar "var foo = 1 // foo\nbar(foo, quux)").2.2.1
  rw [hrename] at hverdict
  exact ⟨hrename, hverdict, by decide +kernel, by decide +kernel⟩

end ScriptLint
