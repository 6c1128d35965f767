import Mathlib
import ScriptLint.Proofs.Contents.Line
import ScriptLint.Proofs.Text.Endings

/-!
The contents of the literals of a script.

* `Position.behind`: the place behind a text that starts a script, `Position.eq_of_behind`: it tells
  how much of the script that text is.
* `LiteralSplit`: a script cut at the contents of a literal; `LiteralSplit.CutsOut`: it is
  cut at the literal that a token is, which `LiteralSplit.CutsOut.eq` shows to be one way;
  `LiteralSplit.Allows`: contents of the same length that leave the literal closed.
* `SourceLine.scanFrom_replaced`: replacing a line by one of the same masked tokens.
* `exists_literalSplit`: a script can be cut at each of its closed literals, and other
  contents lead to the same masked tokens.
* `analyze_withBody`: the verdict on a script does not depend on what its literals hold.
-/

namespace ScriptLint

/-- The place behind a text that starts a script, in the lines of the script. -/
def Position.behind (text : List Char) : Position :=
  let unified := Text.unifyEndings text
  ⟨(Text.physicalLines unified).length, (Text.lastLine unified).length + 1⟩

/-- The place behind the first lines of a script and the start of the next one. -/
lemma Position.behind_eq {before start : List Char} {lines : List (List Char)} {index : Nat}
    (hindex : index < lines.length)
    (h : Text.physicalLines (Text.unifyEndings before) = lines.take index ++ [start]) :
    behind before = ⟨index + 1, start.length + 1⟩ := by
  rw [behind, Text.lastLine, h, List.length_append, List.length_take_of_le hindex.le,
    List.getLast?_concat]
  rfl

/-- Each character of a line goes on to another place. -/
lemma Position.behind_append_ne {text later : List Char} {c : Char} (hfeed : c ≠ '\n')
    (hreturn : c ≠ '\r') : behind (text ++ c :: later) ≠ behind text := by
  intro h
  obtain ⟨hlines, hcolumn⟩ := Position.mk.inj h
  rw [Text.unifyEndings_append_cons hfeed hreturn] at hlines hcolumn
  rw [Text.length_physicalLines, Text.length_physicalLines, List.count_append] at hlines
  -- no line feed follows, so the last line is longer
  have hline : '\n' ∉ c :: Text.unifyEndings later := List.count_eq_zero.mp (by omega)
  rw [Text.lastLine_append hline, List.length_append, List.length_cons] at hcolumn
  omega

/-- The place of a character of a line tells what stands before it. -/
lemma Position.eq_of_behind {first second later later' : List Char} {c d : Char}
    (h : first ++ c :: later = second ++ d :: later') (hplace : behind first = behind second)
    (hc : c ≠ '\n' ∧ c ≠ '\r') (hd : d ≠ '\n' ∧ d ≠ '\r') : first = second := by
  have hpre : first <+: second ++ d :: later' := h ▸ List.prefix_append _ _
  rcases List.prefix_or_prefix_of_prefix hpre (List.prefix_append second _) with
    ⟨part, rfl⟩ | ⟨part, rfl⟩
  · cases part with
    | nil => rw [List.append_nil]
    | cons e rest =>
        rw [List.append_assoc] at h
        obtain ⟨rfl, -⟩ := List.cons.inj (List.append_cancel_left h)
        exact absurd hplace.symm (behind_append_ne hc.1 hc.2)
  · cases part with
    | nil => rw [List.append_nil]
    | cons e rest =>
        rw [List.append_assoc] at h
        obtain ⟨rfl, -⟩ := List.cons.inj (List.append_cancel_left h)
        exact absurd hplace (behind_append_ne hd.1 hd.2)

/-- A script cut at the contents of a literal. -/
@[ext]
structure LiteralSplit where
  before : List Char
  /-- The quote that opens the literal and closes it. -/
  quote : Char
  body : List Char
  after : List Char

namespace LiteralSplit

/-- The whole script. -/
def text (split : LiteralSplit) : List Char :=
  split.before ++ split.quote :: (split.body ++ split.quote :: split.after)

/-- Other contents in the literal. -/
def withBody (split : LiteralSplit) (body : List Char) : LiteralSplit :=
  { split with body := body }

/-- The script is cut at the literal that this token of a line is. -/
structure CutsOut (split : LiteralSplit) (source : List Char) (number : Nat)
    (token : Token) : Prop where
  text_eq : split.text = source
  lexeme_eq : token.lexeme = split.quote :: (split.body ++ [split.quote])
  place_eq : Position.behind split.before = ⟨number, token.column⟩

/-- Contents of the same length, without line endings, backslashes and the quote. -/
structure Allows (split : LiteralSplit) (body : List Char) : Prop where
  length_eq : body.length = split.body.length
  plain : ∀ c ∈ body, c ≠ '\r' ∧ c ≠ '\n' ∧ c ≠ '\\' ∧ c ≠ split.quote

/-- A script can be cut in one way only at the literal that a token is. -/
theorem CutsOut.eq {split other : LiteralSplit} {source : List Char} {number : Nat}
    {token : Token} (h : split.CutsOut source number token)
    (hother : other.CutsOut source number token) (hfeed : split.quote ≠ '\n')
    (hreturn : split.quote ≠ '\r') : split = other := by
  have hplace : Position.behind other.before = Position.behind split.before :=
    hother.place_eq.trans h.place_eq.symm
  obtain ⟨hquote, hclosed⟩ := List.cons.inj (h.lexeme_eq.symm.trans hother.lexeme_eq)
  obtain ⟨hbody, _⟩ := List.append_inj' hclosed rfl
  have htext : split.text = other.text := h.text_eq.trans hother.text_eq.symm
  have hbefore : split.before = other.before :=
    Position.eq_of_behind htext hplace.symm ⟨hfeed, hreturn⟩ (hquote ▸ ⟨hfeed, hreturn⟩)
  rw [text, text, hbefore, hquote, hbody] at htext
  have hafter : split.after = other.after := by simpa using htext
  exact LiteralSplit.ext hbefore hquote hbody hafter

end LiteralSplit

/-! ### Replacing a line -/

/-- A line of a script can be replaced by one with the same masked tokens that leaves a
block comment open as the other one does. The induction is on the lines before. -/
theorem SourceLine.scanFrom_replaced {markers : Markers} {number : Nat} {inComment : Bool}
    {early late : List (List Char)} {physical other : List Char}
    (h : maskedTokens markers (number + early.length) (commentOpen markers inComment early)
        other =
      maskedTokens markers (number + early.length) (commentOpen markers inComment early)
        physical) :
    (scanFrom markers number inComment (early ++ other :: late)).map maskedLine =
      (scanFrom markers number inComment (early ++ physical :: late)).map maskedLine := by
  induction early generalizing number inComment with
  | nil =>
      obtain ⟨hline, hopened⟩ := Prod.mk.inj h
      have hfirst : ∀ line : Option SourceLine,
          line.toList.map maskedLine = (line.map maskedLine).toList := by
        intro line
        cases line <;> rfl
      rw [List.nil_append, List.nil_append, scanFrom, scanFrom]
      dsimp only
      rw [List.map_append, List.map_append, hfirst, hfirst]
      exact congrArg₂ (· ++ ·) (congrArg Option.toList hline)
        (congrArg (fun opened => (scanFrom markers (number + 1) opened late).map maskedLine)
          hopened)
  | cons first rest ih =>
      have hnumber : number + (first :: rest).length = number + 1 + rest.length := by
        rw [List.length_cons]
        omega
      rw [hnumber, commentOpen, ofPhysical_snd number] at h
      rw [List.cons_append, List.cons_append, scanFrom, scanFrom]
      dsimp only
      rw [List.map_append, List.map_append, ih h]

/-! ### Literals of a script -/

/-- A script can be cut in one way at each of its closed literals, and with other contents
in the literal it has the same masked tokens. -/
theorem exists_literalSplit {markers : Markers} (hunblank : markers.Unblank)
    (hunquoted : markers.Unquoted) {source : List Char} {line : TokenLine} {token : Token}
    (hline : line ∈ TokenLine.ofSource markers source) (htoken : token ∈ line.tokens)
    (hkind : token.kind = .literal true) :
    ∃ split : LiteralSplit, split.CutsOut source line.number token ∧
      (∀ other : LiteralSplit, other.CutsOut source line.number token → other = split) ∧
      ∀ body, split.Allows body →
        (TokenLine.ofSource markers (split.withBody body).text).map TokenLine.masked =
          (TokenLine.ofSource markers source).map TokenLine.masked := by
  obtain ⟨index, physical, sourceLine, hphysical, hnumber, htokens, hlies⟩ :=
    exists_sourceLine hline
  rw [htokens] at htoken
  obtain ⟨start, shown, quote, body, rest, rfl, hlexeme, hcolumn, hquote, hbody, hstart⟩ :=
    hlies.exists_literal hunquoted htoken hkind
  have hfeed : quote ≠ '\n' := ne_of_isQuote hquote rfl
  have hreturn : quote ≠ '\r' := ne_of_isQuote hquote rfl
  have hescape : quote ≠ '\\' := ne_of_isQuote hquote rfl
  have hjoin : ∀ contents tail : List Char,
      quote :: (contents ++ [quote]) ++ tail = quote :: (contents ++ quote :: tail) := by
    intro contents tail
    simp
  rw [← hjoin body rest] at hphysical
  obtain ⟨before, after, htext, hbehind, hlines⟩ := Text.exists_part_split hphysical
  have hindex := (List.getElem?_eq_some_iff.mp hphysical).1
  have hwhole : Text.physicalLines (Text.unifyEndings source) =
      (Text.physicalLines (Text.unifyEndings source)).take index ++
        (start ++ quote :: (body ++ quote :: rest)) ::
          (Text.physicalLines (Text.unifyEndings source)).drop (index + 1) := by
    rw [← hjoin, ← (List.getElem?_eq_some_iff.mp hphysical).2,
      ← List.drop_eq_getElem_cons hindex, List.take_append_drop]
  have hcuts : LiteralSplit.CutsOut ⟨before, quote, body, after⟩ source line.number token := by
    refine ⟨?_, hlexeme, ?_⟩
    · rw [htext, hjoin]
      rfl
    · rw [hnumber, hcolumn]
      exact Position.behind_eq hindex hbehind
  refine ⟨⟨before, quote, body, after⟩, hcuts, fun other hother => ?_, fun other hother => ?_⟩
  · exact (hcuts.eq hother hfeed hreturn).symm
  · have hencloses : Encloses quote other :=
      encloses_of_plain hescape fun c hc => (hother.plain c hc).2.2
    have hendless : ∀ c, quote ≠ c → c ∉ other → c ∉ quote :: (other ++ [quote]) := by
      intro c hc hmem
      simp [hmem, hc.symm]
    have hreplaced := hlines (quote :: (other ++ [quote])) (List.cons_ne_nil _ _)
      (hendless _ hreturn fun hmem => (hother.plain _ hmem).1 rfl)
      (hendless _ hfeed fun hmem => (hother.plain _ hmem).2.1 rfl)
    rw [hjoin, hjoin] at hreplaced
    rw [TokenLine.ofSource, TokenLine.ofSource, List.map_map, List.map_map, SourceLine.scan,
      SourceLine.scan, LiteralSplit.text, LiteralSplit.withBody]
    dsimp only
    rw [hreplaced]
    conv_rhs => rw [hwhole]
    refine SourceLine.scanFrom_replaced ?_
    exact SourceLine.maskedTokens_enclosed hunblank hunquoted hquote hstart hbody hencloses
      hother.length_eq

/-! ### Verdicts -/

/-- **Contents of literals**: at each closed literal among its tokens a script can be cut
in one way, and with any other contents there, of the same length and without line endings,
backslashes and the quote, the standard analyzer comes to the same verdict. -/
theorem analyze_withBody {source : String} {line : TokenLine} {token : Token}
    (hline : line ∈ TokenLine.ofSource Analyzer.standard.settings.markers source.toList)
    (htoken : token ∈ line.tokens) (hkind : token.kind = .literal true) :
    (∃! split : LiteralSplit, split.CutsOut source.toList line.number token) ∧
      ∀ split : LiteralSplit, split.CutsOut source.toList line.number token →
        ∀ body, split.Allows body →
          Analyzer.standard.analyze (String.ofList (split.withBody body).text) =
            Analyzer.standard.analyze source := by
  have hunblank : Analyzer.standard.settings.markers.Unblank := by decide
  have hunquoted : Analyzer.standard.settings.markers.Unquoted := by decide
  obtain ⟨split, hcuts, honly, hsame⟩ :=
    exists_literalSplit hunblank hunquoted hline htoken hkind
  refine ⟨⟨split, hcuts, honly⟩, fun other hother body hbody => ?_⟩
  obtain rfl := honly other hother
  rw [Analyzer.analyze, Analyzer.analyze, Analyzer.run, Analyzer.run]
  dsimp only
  rw [← verdictOn_masked, String.toList_ofList, hsame body hbody, verdictOn_masked]

/-- A keyword and a bracket in a literal. -/
theorem analyze_withBody_keyword :
    (⟨1, [⟨.identifier, "x".toList, 1⟩, ⟨.operator .assign, "=".toList, 3⟩,
        ⟨.literal true, "\"if (\"".toList, 5⟩]⟩ : TokenLine) ∈
      TokenLine.ofSource Analyzer.standard.settings.markers "x = \"if (\" // y".toList ∧
    (∃! split : LiteralSplit,
      split.CutsOut "x = \"if (\" // y".toList 1 ⟨.literal true, "\"if (\"".toList, 5⟩) ∧
    ∀ split : LiteralSplit,
      split.CutsOut "x = \"if (\" // y".toList 1 ⟨.literal true, "\"if (\"".toList, 5⟩ →
        ∀ body, split.Allows body →
          Analyzer.standard.analyze (String.ofList (split.withBody body).text) =
            Analyzer.standard.analyze "x = \"if (\" // y" := by
  have hline : (⟨1, [⟨.identifier, "x".toList, 1⟩, ⟨.operator .assign, "=".toList, 3⟩,
      ⟨.literal true, "\"if (\"".toList, 5⟩]⟩ : TokenLine) ∈
        TokenLine.ofSource Analyzer.standard.settings.markers "x = \"if (\" // y".toList := by
    decide +kernel
  exact ⟨hline, analyze_withBody hline (by simp) rfl⟩

end ScriptLint
