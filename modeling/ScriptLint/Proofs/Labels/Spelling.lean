import Mathlib
import ScriptLint.Proofs.Contents.Places
import ScriptLint.Proofs.Labels.Respelled
import ScriptLint.Proofs.Reading.Case
import ScriptLint.Proofs.Reading.Literals

/-!
Scripts whose keywords and built-in names are spelled in another case.

* `Token.Reads.index_eq_of_covers`: one token at most stands over a column.
* `Respelling`: the same script, with letters in another case where that may be.
* `Respelling.lines`: its lines have the same tokens, some of them respelled.
* `analyze_respelling`: its verdict is the same.
-/

namespace ScriptLint

open Text (fold)

/-! ### Tokens over a column -/

namespace Token

variable {column : ℕ} {afterNumber : Bool} {text : List Char} {tokens : List Token}

/-- One token at most stands over a column. -/
lemma Reads.index_eq_of_covers (h : Reads column afterNumber text tokens) {index other place : ℕ}
    {first second : Token} (hfirst : tokens[index]? = some first)
    (hsecond : tokens[other]? = some second) (hover : first.Covers place)
    (hover' : second.Covers place) : index = other := by
  have hends := List.pairwise_iff_getElem.mp h.pairwise_end
  obtain ⟨hindex, rfl⟩ := List.getElem?_eq_some_iff.mp hfirst
  obtain ⟨hother, rfl⟩ := List.getElem?_eq_some_iff.mp hsecond
  obtain ⟨hle, hlt⟩ := hover
  obtain ⟨hle', hlt'⟩ := hover'
  rcases lt_trichotomy index other with hbefore | heq | hbehind
  · have hend := hends index other hindex hother hbefore
    omega
  · exact heq
  · have hend := hends other index hother hindex hbehind
    omega

/-- It is the same token. -/
lemma Reads.eq_of_covers (h : Reads column afterNumber text tokens) {place : ℕ}
    {first second : Token} (hfirst : first ∈ tokens) (hsecond : second ∈ tokens)
    (hover : first.Covers place) (hover' : second.Covers place) : first = second := by
  obtain ⟨index, hindex⟩ := List.getElem?_of_mem hfirst
  obtain ⟨other, hother⟩ := List.getElem?_of_mem hsecond
  obtain rfl := h.index_eq_of_covers hindex hother hover hover'
  exact Option.some.inj (hindex.symm.trans hother)

/-- A token is the same if it is so in small letters and its text is. -/
lemma eq_of_folded {token other : Token} {after after' : Bool} {later later' : List Char}
    (h : other.folded = token.folded) (hlexeme : other.lexeme = token.lexeme)
    (hspells : Spells after later token.kind token.lexeme)
    (hother : Spells after' later' other.kind other.lexeme) : other = token := by
  obtain ⟨kind, lexeme, place⟩ := token
  obtain ⟨otherKind, otherLexeme, otherPlace⟩ := other
  obtain ⟨hkind, -, hplace⟩ := Token.mk.inj h
  obtain rfl : otherLexeme = lexeme := hlexeme
  obtain rfl : otherPlace = place := hplace
  have hsame : otherKind = kind := by
    cases kind with
    | invalid c =>
        cases otherKind with
        | invalid d =>
            have hchar := hspells.head?_invalid.symm.trans hother.head?_invalid
            rw [Option.some.inj hchar]
        | _ => cases hkind
    | _ =>
        cases otherKind with
        | invalid d => cases hkind
        | _ => exact hkind
  rw [hsame]

/-- Words that are the same in small letters. -/
lemma foldedWord_eq_of_folded {token other : Token}
    (hword : token.kind = .identifier ∨ ∃ keyword, token.kind = .keyword keyword)
    (h : other.folded = token.folded) : other.foldedWord = token.foldedWord := by
  obtain ⟨kind, lexeme, place⟩ := token
  obtain ⟨otherKind, otherLexeme, otherPlace⟩ := other
  obtain ⟨hkind, hlexeme, rfl⟩ := Token.mk.inj h
  obtain rfl : otherKind = kind := by
    rcases hword with rfl | ⟨keyword, rfl⟩ <;> cases otherKind <;> first | exact hkind | cases hkind
  rcases hword with rfl | ⟨keyword, rfl⟩ <;>
    exact congrArg (fun lexeme => (⟨_, lexeme, otherPlace⟩ : Token)) hlexeme

end Token

/-- What may be respelled is a word. -/
lemma Respellable.isWord {tokens : List Token} {index : ℕ} {token : Token}
    (h : Respellable tokens index) (htoken : tokens[index]? = some token) :
    token.kind = .identifier ∨ ∃ keyword, token.kind = .keyword keyword := by
  rcases h with ⟨keyword, hkeyword⟩ | hbuiltin
  · exact .inr ⟨keyword, (kindAt_iff htoken).mp hkeyword⟩
  · exact .inl ((kindAt_iff htoken).mp hbuiltin.identifier)

/-! ### Respelled scripts -/

/-- A token that may be respelled stands over this place. -/
def RespellableAt (lines : List TokenLine) (place : Position) : Prop :=
  ∃ line ∈ lines, line.number = place.line ∧ ∃ index token, line.tokens[index]? = some token ∧
    token.Covers place.column ∧ Respellable line.tokens index

/-- The same script up to the case of letters, where only letters of tokens that may be respelled
are in another case. -/
structure Respelling (markers : Markers) (source other : List Char) : Prop where
  sameName : Text.sameName source other = true
  respellable : ∀ index, source[index]? ≠ other[index]? →
    RespellableAt (TokenLine.ofSource markers source) (.behind (source.take index))

section Lines

variable {markers : Markers} {source other : List Char} {line respelled : TokenLine}
  {token same : Token} {index : ℕ}

/-- One line at most has a number. -/
lemma TokenLine.eq_of_number (hline : line ∈ ofSource markers source)
    (hother : respelled ∈ ofSource markers source) (h : respelled.number = line.number) :
    respelled = line := by
  have hnodup : ((ofSource markers source).map TokenLine.number).Nodup :=
    List.pairwise_map.mpr ((linesOrdered_ofSource markers source).numbers.imp ne_of_lt)
  exact List.inj_on_of_nodup_map hnodup hother hline h

/-- One token at most stands over a place of a script. -/
lemma RespellableAt.respellable {column : ℕ}
    (h : RespellableAt (TokenLine.ofSource markers source) ⟨line.number, column⟩)
    (hline : line ∈ TokenLine.ofSource markers source) (htoken : line.tokens[index]? = some token)
    (hcovers : token.Covers column) : Respellable line.tokens index := by
  obtain ⟨found, hfound, hnumber, position, covering, hcovering, hover, hrespellable⟩ := h
  obtain rfl : found = line := TokenLine.eq_of_number hline hfound hnumber
  obtain ⟨sourceLine, -, rfl⟩ := List.mem_map.mp hfound
  obtain rfl : position = index :=
    (Token.reads_read _ _ _).index_eq_of_covers hcovering htoken hover hcovers
  exact hrespellable

namespace Respelling

variable (h : Respelling markers source other)
  (hline : line ∈ TokenLine.ofSource markers source)
  (hrespelled : respelled ∈ TokenLine.ofSource markers other)

include h hline hrespelled

/-- Where the characters of two tokens are in another case, a token may be respelled. -/
lemma respellableAt (hnumber : respelled.number = line.number) (htoken : token ∈ line.tokens)
    (hsame : same ∈ respelled.tokens) (hcolumn : same.column = token.column) {offset : ℕ}
    {c d : Char} (hc : token.lexeme[offset]? = some c) (hd : same.lexeme[offset]? = some d)
    (hlower : c.toLower = d.toLower) (hne : c ≠ d) :
    RespellableAt (TokenLine.ofSource markers source) ⟨line.number, token.column + offset⟩ := by
  obtain ⟨place, physical, sourceLine, hphysical, hplace, hread, hlies⟩ := exists_sourceLine hline
  obtain ⟨place', physical', sourceLine', hphysical', hplace', hread', hlies'⟩ :=
    exists_sourceLine hrespelled
  rw [hread] at htoken
  rw [hread'] at hsame
  obtain rfl : place' = place := by omega
  obtain ⟨hlt, rfl⟩ := List.getElem?_eq_some_iff.mp hc
  obtain ⟨hlt', rfl⟩ := List.getElem?_eq_some_iff.mp hd
  have hstands := (hlies.token_char htoken hlt).2
  have hstands' := (hlies'.token_char hsame hlt').2
  rw [hcolumn] at hstands'
  obtain ⟨moment, hchar, hchar', hbehind⟩ := exists_moment Text.within_toLower
    (fun _ => Text.isBlank_of_isAlpha) (Text.sameName_iff.mp h.sameName) hphysical hphysical'
    hstands hstands' (Text.isAlpha_of_toLower_eq hlower hne)
    (Text.isAlpha_of_toLower_eq hlower.symm hne.symm)
  have hstart := (hlies.column_bounds htoken).1
  have hcharacter : token.column - 1 + offset + 1 = token.column + offset := by omega
  rw [hplace, ← hcharacter, ← hbehind]
  refine h.respellable moment ?_
  rw [hchar, hchar']
  exact fun heq => hne (Option.some.inj heq)

/-- A token that may not be respelled stays. -/
lemma token_eq (hfolded : respelled.folded = line.folded)
    (htoken : line.tokens[index]? = some token)
    (hsame : respelled.tokens[index]? = some same) (hnot : ¬Respellable line.tokens index) :
    same = token := by
  obtain ⟨hnumber, htokens⟩ := TokenLine.mk.inj hfolded
  have hfold : same.folded = token.folded := by
    have hget := congrArg (fun tokens : List Token => tokens[index]?) htokens
    simpa only [List.getElem?_map, htoken, hsame, Option.map_some, Option.some.injEq] using hget
  obtain ⟨-, hlower, hcolumn⟩ := Token.mk.inj hfold
  have hmem := List.mem_of_getElem? htoken
  have hmem' := List.mem_of_getElem? hsame
  have hlexeme : same.lexeme = token.lexeme := by
    have hlength : same.lexeme.length = token.lexeme.length := by
      rw [← Text.length_fold, hlower, Text.length_fold]
    refine List.ext_getElem hlength fun offset hlt hlt' => ?_
    by_contra hne
    have hcase : token.lexeme[offset].toLower = same.lexeme[offset].toLower := by
      have hget := congrArg (fun text : List Char => text[offset]?) hlower.symm
      simpa only [fold, List.getElem?_map, List.getElem?_eq_getElem hlt,
        List.getElem?_eq_getElem hlt', Option.map_some, Option.some.injEq] using hget
    have hplace := h.respellableAt hline hrespelled hnumber hmem hmem' hcolumn
      (List.getElem?_eq_getElem hlt') (List.getElem?_eq_getElem hlt) hcase (Ne.symm hne)
    have hcovers : token.Covers (token.column + offset) :=
      ⟨Nat.le_add_right _ _, Nat.add_lt_add_left hlt' _⟩
    exact hnot (hplace.respellable hline htoken hcovers)
  obtain ⟨sourceLine, -, rfl⟩ := List.mem_map.mp hline
  obtain ⟨sourceLine', -, rfl⟩ := List.mem_map.mp hrespelled
  obtain ⟨_, _, _, _, _, hspells⟩ := (Token.reads_read _ _ _).exists_split hmem
  obtain ⟨_, _, _, _, _, hspells'⟩ := (Token.reads_read _ _ _).exists_split hmem'
  exact Token.eq_of_folded hfold hlexeme hspells hspells'

/-- The tokens of a line, some of them respelled. -/
lemma line_respells (hfolded : respelled.folded = line.folded) : line.Respells respelled := by
  obtain ⟨hnumber, htokens⟩ := TokenLine.mk.inj hfolded
  have hkept : ∀ {index : ℕ} {token same : Token}, line.tokens[index]? = some token →
      respelled.tokens[index]? = some same → same = token ∨ Respellable line.tokens index := by
    intro index token same htoken hsame
    by_cases hrespellable : Respellable line.tokens index
    · exact .inr hrespellable
    · exact .inl (h.token_eq hline hrespelled hfolded htoken hsame hrespellable)
  have hlength : respelled.tokens.length = line.tokens.length := by
    simpa only [List.length_map] using congrArg List.length htokens
  refine ⟨hnumber, ⟨List.ext_getElem (by simpa using hlength) fun index hlt hlt' => ?_, hkept⟩⟩
  rw [List.length_map] at hlt hlt'
  rw [List.getElem_map, List.getElem_map]
  have htoken := List.getElem?_eq_getElem hlt'
  rcases hkept htoken (List.getElem?_eq_getElem hlt) with hsame | hrespellable
  · rw [hsame]
  · have hget := congrArg (fun tokens : List Token => tokens[index]?) htokens
    simp only [List.getElem?_map, htoken, List.getElem?_eq_getElem hlt, Option.map_some,
      Option.some.injEq] at hget
    exact Token.foldedWord_eq_of_folded (hrespellable.isWord htoken) hget

omit hline hrespelled in
/-- **The lines** of a respelled script have the same tokens, some of them respelled. -/
theorem lines (hmarkers : markers.Unlettered) : List.Forall₂ TokenLine.Respells
    (TokenLine.ofSource markers source) (TokenLine.ofSource markers other) := by
  have hmap : (TokenLine.ofSource markers other).map TokenLine.folded =
      (TokenLine.ofSource markers source).map TokenLine.folded := by
    rw [← TokenLine.ofSource_fold hmarkers, ← TokenLine.ofSource_fold hmarkers,
      Text.sameName_iff.mp h.sameName]
  exact (forall₂_of_map_eq hmap).imp fun line respelled ⟨hfolded, hline, hrespelled⟩ =>
    h.line_respells hline hrespelled hfolded

end Respelling

end Lines

/-! ### Verdicts -/

/-- **The case of letters**: with letters of keywords in another case, and letters of built-in
names that their lines do not declare, a script gets the same verdict from the standard
analyzer. -/
theorem analyze_respelling {source other : String}
    (h : Respelling Analyzer.standard.settings.markers source.toList other.toList) :
    Analyzer.standard.analyze other = Analyzer.standard.analyze source := by
  have hmarkers : Analyzer.standard.settings.markers.Unlettered := by decide
  exact verdictOn_respelled (h.lines hmarkers) Analyzer.standard.settings

/-- A keyword and a price in another case. -/
theorem analyze_respelling_price :
    Respelling Analyzer.standard.settings.markers "if Open".toList "IF open".toList ∧
      Analyzer.standard.analyze "IF open" = Analyzer.standard.analyze "if Open" := by
  have hlines : TokenLine.ofSource Analyzer.standard.settings.markers "if Open".toList =
      [⟨1, [⟨.keyword .if_, "if".toList, 1⟩, ⟨.identifier, "Open".toList, 4⟩]⟩] := by
    decide +kernel
  have hchanged : ∀ index < 7, "if Open".toList[index]? ≠ "IF open".toList[index]? →
      index = 0 ∨ index = 1 ∨ index = 3 := by decide
  have hspelling :
      Respelling Analyzer.standard.settings.markers "if Open".toList "IF open".toList := by
    refine ⟨by decide, fun index hne => ?_⟩
    have hlt : index < 7 := by
      by_contra hge
      rw [List.getElem?_eq_none (Nat.le_of_not_lt hge),
        List.getElem?_eq_none (Nat.le_of_not_lt hge)] at hne
      exact hne rfl
    rw [hlines]
    rcases hchanged index hlt hne with rfl | rfl | rfl
    · exact ⟨_, List.mem_singleton_self _, rfl, 0, _, rfl, ⟨by decide, by decide⟩,
        .inl ⟨.if_, by decide⟩⟩
    · exact ⟨_, List.mem_singleton_self _, rfl, 0, _, rfl, ⟨by decide, by decide⟩,
        .inl ⟨.if_, by decide⟩⟩
    · refine ⟨_, List.mem_singleton_self _, rfl, 1, _, rfl, ⟨by decide, by decide⟩, .inr ?_⟩
      exact ⟨by decide, ⟨_, ⟨_, rfl, rfl⟩, by decide⟩, fun h => absurd h.2 (by decide),
        fun h => absurd h.2.1 (by decide), fun h => absurd h.leads (by decide), by decide⟩
  exact ⟨hspelling, analyze_respelling hspelling⟩

end ScriptLint
