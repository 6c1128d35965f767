import Mathlib
import ScriptLint.Proofs.Contents.Masked
import ScriptLint.Proofs.Reading.Cuts
import ScriptLint.Proofs.Reading.Scanning

/-!
A closed literal in a physical line.

* `Encloses`: contents that a quote closes where they end, and not before.
* `siftPart`: sifting the start of a line; `siftFrom_enclosed`: a literal that begins
  where code goes on is shown as it is, and code goes on behind it.
* `Token.read_enclosed`: the tokens before such a literal and behind it do not depend on
  its contents.
* `SourceLine.maskedTokens_enclosed`: nor does what is read of the rest of its line.
* `SourceLine.LiesIn.exists_literal`: each closed literal among the tokens of a source line
  stands so in its physical line.
-/

namespace ScriptLint

open Text (isBlank)

/-! ### Contents of literals -/

/-- The quote closes a literal with these contents right behind them. -/
def Encloses (quote : Char) (body : List Char) : Prop :=
  Token.literalExtent quote (body ++ [quote]) = (body.length + 1, true)

section Encloses

variable {quote : Char} {body text later : List Char}

/-- Whatever follows, the literal ends with its contents. -/
lemma Encloses.literalExtent_eq (h : Encloses quote body) :
    Token.literalExtent quote (body ++ quote :: later) = (body.length + 1, true) := by
  have hsplit : body ++ quote :: later = (body ++ [quote]) ++ later :=
    List.append_cons body quote later
  rw [hsplit, Token.literalExtent_append (congrArg Prod.snd h), h]

/-- Contents without backslashes and without the quote. -/
lemma encloses_of_plain (hquote : quote ≠ '\\') (h : ∀ c ∈ body, c ≠ '\\' ∧ c ≠ quote) :
    Encloses quote body := by
  induction body with
  | nil => exact Token.literalExtent_close hquote
  | cons c rest ih =>
      obtain ⟨hescape, hother⟩ := h c List.mem_cons_self
      have hrest : Encloses quote rest := ih fun d hd => h d (List.mem_cons_of_mem c hd)
      rw [Encloses, List.cons_append, Token.literalExtent_plain hescape hother, hrest]
      rfl

/-- What a closed literal holds. -/
lemma exists_body (h : (Token.literalExtent quote text).2 = true) :
    ∃ body, text.take (Token.literalExtent quote text).1 = body ++ [quote] ∧
      Encloses quote body := by
  fun_induction Token.literalExtent quote text with
  | case1 => cases h
  | case2 => cases h
  | case3 guarded rest more closed hextent ih =>
      rw [hextent] at ih
      obtain ⟨body, htake, hbody⟩ := ih h
      refine ⟨'\\' :: guarded :: body, congrArg ('\\' :: guarded :: ·) htake, ?_⟩
      rw [Encloses, List.cons_append, List.cons_append, Token.literalExtent_escape, hbody]
      rfl
  | case4 rest hescape => exact ⟨[], rfl, Token.literalExtent_close hescape⟩
  | case5 first rest hescape hclose more closed hextent ih =>
      rw [hextent] at ih
      obtain ⟨body, htake, hbody⟩ := ih h
      refine ⟨first :: body, congrArg (first :: ·) htake, ?_⟩
      rw [Encloses, List.cons_append, Token.literalExtent_plain hescape hclose, hbody]
      rfl

end Encloses

/-! ### Sifting around a literal -/

/-- What is shown of the start of a line, and the zone behind it; none if the line is cut
there. -/
def siftPart (markers : Markers) : Zone → List Char → Option (List Char × Zone)
  | zone, [] => some ([], zone)
  | zone, c :: rest =>
    match zone.step markers c rest with
    | none => none
    | some (shown, next) =>
      (siftPart markers next rest).map fun later => (shown :: later.1, later.2)

section Sifting

variable {markers : Markers} {zone last : Zone} {quote c : Char}
  {before shown body later rest : List Char}

/-- The first step of a part that is not cut. -/
lemma exists_step_of_siftPart (h : siftPart markers zone (c :: rest) = some (shown, last)) :
    ∃ first next more, zone.step markers c rest = some (first, next) ∧
      siftPart markers next rest = some (more, last) ∧ shown = first :: more := by
  rw [siftPart] at h
  cases hstep : zone.step markers c rest with
  | none =>
      rw [hstep] at h
      cases h
  | some pair =>
      obtain ⟨first, next⟩ := pair
      rw [hstep] at h
      obtain ⟨⟨more, final⟩, hrest, heq⟩ := Option.map_eq_some_iff.mp h
      obtain ⟨rfl, rfl⟩ := Prod.mk.inj heq
      exact ⟨first, next, more, rfl, hrest, rfl⟩

/-- A step does not look over a quote. -/
lemma Zone.step_append_quote (hmarkers : markers.Unquoted) (hquote : Zone.isQuote quote = true) :
    zone.step markers c (rest ++ quote :: later) = zone.step markers c rest := by
  obtain ⟨hline, hopen, hclose⟩ := hmarkers.not_mem hquote
  cases zone with
  | code =>
      rw [step, step, ← List.cons_append, Markers.standsAt_append_cons hline,
        Markers.standsAt_append_cons hopen]
  | comment => rw [step, step, ← List.cons_append, Markers.standsAt_append_cons hclose]
  | _ => rfl

/-- What is shown of a line that is not cut before a quote. -/
lemma siftFrom_append_quote (hmarkers : markers.Unquoted) (hquote : Zone.isQuote quote = true)
    (h : siftPart markers zone before = some (shown, last)) :
    siftFrom markers zone (before ++ quote :: later) =
      ⟨shown ++ (siftFrom markers last (quote :: later)).shown,
        (siftFrom markers last (quote :: later)).opened⟩ := by
  induction before generalizing zone shown with
  | nil =>
      obtain ⟨rfl, rfl⟩ := Prod.mk.inj (Option.some.inj h)
      rfl
  | cons c rest ih =>
      obtain ⟨first, next, more, hstep, hrest, rfl⟩ := exists_step_of_siftPart h
      rw [List.cons_append, siftFrom, Zone.step_append_quote hmarkers hquote, hstep]
      dsimp only
      rw [ih hrest]
      rfl

/-- Nothing is shown of a quote if the line is cut before it. -/
lemma length_siftFrom_le_of_cut (hmarkers : markers.Unquoted)
    (hquote : Zone.isQuote quote = true) (h : siftPart markers zone before = none) :
    (siftFrom markers zone (before ++ quote :: later)).shown.length ≤ before.length := by
  induction before generalizing zone with
  | nil => cases h
  | cons c rest ih =>
      rw [List.cons_append, siftFrom, Zone.step_append_quote hmarkers hquote]
      rw [siftPart] at h
      cases hstep : zone.step markers c rest with
      | none => exact Nat.zero_le _
      | some pair =>
          obtain ⟨first, next⟩ := pair
          rw [hstep] at h
          exact Nat.succ_le_succ (ih (Option.map_eq_none_iff.mp h))

/-- Sifting the start of a line keeps the columns, and goes on outside comments as it would
without comment markers. -/
lemma siftPart_spec (h : siftPart markers zone before = some (shown, last)) :
    shown.length = before.length ∧ last.uncommented = zone.uncommented.after shown := by
  induction before generalizing zone shown with
  | nil =>
      obtain ⟨rfl, rfl⟩ := Prod.mk.inj (Option.some.inj h)
      exact ⟨rfl, rfl⟩
  | cons c rest ih =>
      obtain ⟨first, next, more, hstep, hrest, rfl⟩ := exists_step_of_siftPart h
      obtain ⟨hlength, hlast⟩ := ih hrest
      refine ⟨congrArg (· + 1) hlength, ?_⟩
      rw [Zone.after_cons, hlast]
      rcases Zone.step_cases hstep with ⟨rfl, _, hzone, hnext⟩ | ⟨rfl, hzone, hnext, hkept⟩
      · rw [hzone, hnext]
        rfl
      · rw [hzone, hnext, Zone.next, hkept []]
        rfl

/-- Outside comments, what stays at the end of a part is that code goes on. -/
lemma eq_code_of_uncommented (hzone : zone.uncommented = .code) (hc : c ≠ ' ')
    (h : (siftFrom markers zone (c :: rest)).shown.head? = some c) : zone = .code := by
  cases hstep : zone.step markers c rest with
  | none =>
      rw [siftFrom, hstep] at h
      cases h
  | some pair =>
      obtain ⟨first, next⟩ := pair
      rw [siftFrom, hstep] at h
      have hfirst : first = c := Option.some.inj h
      rcases Zone.step_cases hstep with ⟨hspace, _⟩ | ⟨_, hkept, _⟩
      · exact absurd (hfirst.symm.trans hspace) hc
      · rw [← hkept, hzone]

/-- A literal is shown as it is. The induction is along its reading. -/
lemma siftFrom_literal (markers : Markers) (quote : Char) (text : List Char) :
    siftFrom markers (.literal quote) text =
      ⟨text.take (Token.literalExtent quote text).1 ++
          (siftFrom markers .code (text.drop (Token.literalExtent quote text).1)).shown,
        (siftFrom markers .code (text.drop (Token.literalExtent quote text).1)).opened⟩ := by
  fun_induction Token.literalExtent quote text with
  | case1 => rfl
  | case2 => rfl
  | case3 guarded rest more closed hextent ih =>
      rw [hextent] at ih
      have hescape : (Zone.literal quote).step markers '\\' (guarded :: rest) =
          some ('\\', .escape quote) := rfl
      have hguarded : (Zone.escape quote).step markers guarded rest =
          some (guarded, .literal quote) := rfl
      rw [siftFrom, hescape]
      dsimp only
      rw [siftFrom, hguarded]
      dsimp only
      rw [ih]
      rfl
  | case4 rest hescape =>
      have hclose : (Zone.literal quote).step markers quote rest = some (quote, .code) := by
        rw [Zone.step, if_neg hescape, if_pos rfl]
      rw [siftFrom, hclose]
      rfl
  | case5 first rest hescape hclose more closed hextent ih =>
      rw [hextent] at ih
      have hstay : (Zone.literal quote).step markers first rest =
          some (first, .literal quote) := by
        rw [Zone.step, if_neg hescape, if_neg hclose]
      rw [siftFrom, hstay]
      dsimp only
      rw [ih]
      rfl

/-- A literal that begins where code goes on is shown as it is, and code goes on behind
it. -/
theorem siftFrom_enclosed (hmarkers : markers.Unquoted) (hquote : Zone.isQuote quote = true)
    (h : siftPart markers zone before = some (shown, .code)) (hbody : Encloses quote body) :
    siftFrom markers zone (before ++ quote :: (body ++ quote :: later)) =
      ⟨shown ++ quote :: (body ++ quote :: (siftFrom markers .code later).shown),
        (siftFrom markers .code later).opened⟩ := by
  obtain ⟨hline, hopen, _⟩ := hmarkers.not_mem hquote
  have hstep : Zone.step markers .code quote (body ++ quote :: later) =
      some (quote, .literal quote) := by
    rw [Zone.step, Markers.standsAt_cons_of_not_mem hline,
      Markers.standsAt_cons_of_not_mem hopen, if_pos hquote]
    rfl
  rw [siftFrom_append_quote hmarkers hquote h, siftFrom, hstep]
  dsimp only
  rw [siftFrom_literal, hbody.literalExtent_eq]
  have hsplit : body ++ quote :: later = (body ++ [quote]) ++ later :=
    List.append_cons body quote later
  have hlength : body.length + 1 = (body ++ [quote]).length := by simp
  rw [hsplit, hlength, List.take_left, List.drop_left]
  simp

end Sifting

/-! ### Reading around a literal -/

section Reading

variable {quote : Char} {body other shown tail text : List Char} {column number : Nat}

lemma not_blank_of_quote (h : Zone.isQuote quote = true) : isBlank quote = false := by
  by_contra hblank
  rw [Bool.not_eq_false] at hblank
  rw [not_quote_of_blank hblank] at h
  cases h

/-- The tokens around a literal that begins where code goes on. -/
theorem Token.read_enclosed (hcode : Zone.code.after text = .code)
    (hquote : Zone.isQuote quote = true) (hbody : Encloses quote body) :
    Token.read column false (text ++ quote :: (body ++ quote :: tail)) =
      Token.read column false text ++
        ⟨.literal true, quote :: (body ++ [quote]), column + text.length⟩ ::
          Token.read (column + text.length + (body.length + 2)) false tail := by
  have hnumber : (quote.isDigit || (quote == '.' &&
      Token.digitsLength (body ++ quote :: tail) != 0)) = false := by
    rw [Zone.isQuote, Bool.or_eq_true, beq_iff_eq, beq_iff_eq] at hquote
    rcases hquote with rfl | rfl <;> rfl
  have hextent : Token.extent quote (body ++ quote :: tail) =
      (.literal true, body.length + 1) := by
    rw [Token.extent, hnumber, if_neg Bool.false_ne_true, if_pos hquote, hbody.literalExtent_eq]
  have hsplit : body ++ quote :: tail = (body ++ [quote]) ++ tail :=
    List.append_cons body quote tail
  have hlength : body.length + 1 = (body ++ [quote]).length := by simp
  have hblank : ¬ isBlank quote = true := by
    rw [not_blank_of_quote hquote]
    exact Bool.false_ne_true
  have hcolumn : column + text.length + 1 + (body.length + 1) =
      column + text.length + (body.length + 2) := by omega
  rw [Token.read_append hcode (.inr hquote), Token.read, if_neg hblank, Bool.false_and,
    if_neg Bool.false_ne_true, hextent]
  dsimp only
  rw [hcolumn, hsplit, hlength, List.take_left, List.drop_left]
  rfl

/-- The source line of what is shown around a literal. -/
lemma SourceLine.ofShown?_enclosed (hquote : Zone.isQuote quote = true) :
    SourceLine.ofShown? number (shown ++ quote :: (body ++ quote :: tail)) =
      some ⟨number, Text.trimStart shown ++ quote :: (body ++ quote :: Text.trimEnd tail),
        Text.leadingBlanks shown⟩ := by
  have hblank := not_blank_of_quote hquote
  have htrim : Text.trim (shown ++ quote :: (body ++ quote :: tail)) =
      Text.trimStart shown ++ quote :: (body ++ quote :: Text.trimEnd tail) := by
    rw [Text.trim_append_cons hblank, Text.trimEnd_append_cons hblank]
  rw [SourceLine.ofShown?, htrim, Text.leadingBlanks_append_cons hblank, if_neg]
  simp

end Reading

/-! ### A literal of a physical line -/

namespace SourceLine

variable {markers : Markers} {inComment : Bool} {number : Nat} {quote : Char}
  {before shown body other later : List Char}

/-- The tokens of a source line, literals masked. -/
def maskedLine (line : SourceLine) : TokenLine :=
  TokenLine.masked ⟨line.number, Token.ofLine line⟩

/-- The tokens of the line that is left of a physical line, literals masked, and whether a
block comment is open behind it. -/
def maskedTokens (markers : Markers) (number : Nat) (inComment : Bool)
    (physical : List Char) : Option TokenLine × Bool :=
  ((ofPhysical markers number inComment physical).1.map maskedLine,
    (ofPhysical markers number inComment physical).2)

/-- What is left of a physical line does not depend on what a literal holds that begins
where code goes on. -/
theorem maskedTokens_enclosed (hunblank : markers.Unblank) (hunquoted : markers.Unquoted)
    (hquote : Zone.isQuote quote = true)
    (h : siftPart markers (Zone.ofStart inComment) before = some (shown, .code))
    (hbody : Encloses quote body) (hother : Encloses quote other)
    (hlength : other.length = body.length) :
    maskedTokens markers number inComment (before ++ quote :: (other ++ quote :: later)) =
      maskedTokens markers number inComment (before ++ quote :: (body ++ quote :: later)) := by
  have hblank := not_blank_of_quote hquote
  obtain ⟨hline, hopen, _⟩ := hunquoted.not_mem hquote
  -- code goes on behind what is left of the start of the line
  have hstart : Zone.code.after (Text.trimStart shown) = .code := by
    obtain ⟨leading, hsplit, hleading⟩ := Text.exists_trimStart_split shown
    have hshown := (siftPart_spec h).2
    rw [Zone.uncommented_ofStart, hsplit, Zone.after_append,
      (code_of_not_quote fun c hc => not_quote_of_blank (hleading c hc)).2] at hshown
    exact hshown.symm
  have hmasked : ∀ contents, Encloses quote contents →
      maskedTokens markers number inComment (before ++ quote :: (contents ++ quote :: later)) =
        ((if !inComment && (Markers.standsAt markers.line (Text.trimStart before) ||
              Markers.standsAt markers.blockOpen (Text.trimStart before)) then none
          else some ⟨number,
            (Token.read (Text.leadingBlanks shown + 0 + 1) false (Text.trimStart shown)).map
                Token.masked ++
              ⟨.literal true, [],
                Text.leadingBlanks shown + 0 + 1 + (Text.trimStart shown).length⟩ ::
                (Token.read (Text.leadingBlanks shown + 0 + 1 + (Text.trimStart shown).length +
                  (contents.length + 2)) false
                  (Text.trimEnd (siftFrom markers .code later).shown)).map Token.masked⟩),
          (siftFrom markers .code later).opened) := by
    intro contents hcontents
    have hsift : sift markers inComment (before ++ quote :: (contents ++ quote :: later)) =
        ⟨shown ++ quote :: (contents ++ quote :: (siftFrom markers .code later).shown),
          (siftFrom markers .code later).opened⟩ :=
      siftFrom_enclosed hunquoted hquote h hcontents
    rw [maskedTokens, ofPhysical_eq_sift hunblank, hsift, Text.trimStart_append_cons hblank,
      Markers.standsAt_append_cons hline, Markers.standsAt_append_cons hopen,
      ofShown?_enclosed hquote]
    dsimp only
    split_ifs with hdropped
    · rfl
    · rw [Option.map_some, maskedLine, Token.ofLine, TokenLine.masked, SourceLine.column]
      dsimp only
      rw [Token.read_enclosed hstart hquote hcontents, List.map_append]
      rfl
  rw [hmasked other hother, hmasked body hbody, hlength]

/-- A token can be cut out of the physical line at its column. -/
lemma LiesIn.exists_cut {physical : List Char} {line : SourceLine} {token : Token}
    (hlies : line.LiesIn markers inComment physical) (htoken : token ∈ Token.ofLine line) :
    ∃ before later, physical = before ++ (token.lexeme ++ later) ∧
      token.column = before.length + 1 := by
  obtain ⟨hpositive, hle⟩ := hlies.column_bounds htoken
  refine ⟨physical.take (token.column - 1),
    (physical.drop (token.column - 1)).drop token.lexeme.length, ?_, ?_⟩
  · have hstands := hlies.literalsAgree.lexeme_stands token htoken
    have hdrop := List.take_append_drop token.lexeme.length (physical.drop (token.column - 1))
    rw [hstands] at hdrop
    rw [hdrop, List.take_append_drop]
  · rw [List.length_take]
    omega

/-- **A literal in its line**: a closed literal among the tokens of a source line stands so
in the physical line, where code goes on. -/
theorem LiesIn.exists_literal (hunquoted : markers.Unquoted) {physical : List Char}
    {line : SourceLine} {token : Token} (hlies : line.LiesIn markers inComment physical)
    (htoken : token ∈ Token.ofLine line) (hkind : token.kind = .literal true) :
    ∃ before shown quote body later, physical = before ++ quote :: (body ++ quote :: later) ∧
      token.lexeme = quote :: (body ++ [quote]) ∧ token.column = before.length + 1 ∧
        Zone.isQuote quote = true ∧ Encloses quote body ∧
          siftPart markers (Zone.ofStart inComment) before = some (shown, .code) := by
  obtain ⟨leading, trailing, hshown, hleading, hblank, _⟩ := hlies.exists_shown
  obtain ⟨start, tail, after, htext, hcolumn, hspells, hcode⟩ :=
    (Token.reads_read (line.column 0) false line.text).exists_split_code htoken
  obtain ⟨before, later, rfl, hplace⟩ := hlies.exists_cut htoken
  rw [hkind] at hspells
  obtain ⟨quote, rest, hlexeme, hquote, hextent⟩ := hspells.exists_quote
  obtain ⟨body, htake, hbody⟩ := exists_body (congrArg Prod.snd hextent)
  rw [hextent, List.take_left] at htake
  subst htake
  have hsplit : token.lexeme ++ later = quote :: (body ++ quote :: later) := by
    rw [hlexeme]
    simp
  have hsifted : (siftFrom markers (Zone.ofStart inComment)
      (before ++ quote :: (body ++ quote :: later))).shown =
        (leading ++ start) ++ (token.lexeme ++ (tail ++ trailing)) := by
    rw [← hsplit]
    refine hshown.trans ?_
    rw [htext]
    simp only [List.append_assoc]
  have hcolumns : before.length = (leading ++ start).length := by
    rw [hcolumn, SourceLine.column] at hplace
    rw [List.length_append, hleading]
    omega
  cases hsift : siftPart markers (Zone.ofStart inComment) before with
  | none =>
      -- a line that is cut before the token does not show it
      have hle : (siftFrom markers (Zone.ofStart inComment)
          (before ++ quote :: (body ++ quote :: later))).shown.length ≤ before.length :=
        length_siftFrom_le_of_cut hunquoted hquote hsift
      rw [hsifted, List.length_append, hlexeme, ← hcolumns, List.cons_append,
        List.length_cons] at hle
      omega
  | some pair =>
      obtain ⟨shown, last⟩ := pair
      obtain ⟨hkept, hzone⟩ := siftPart_spec hsift
      rw [siftFrom_append_quote hunquoted hquote hsift] at hsifted
      obtain ⟨rfl, hrest⟩ := List.append_inj hsifted (hkept.trans hcolumns)
      have huncommented : last.uncommented = .code := by
        rw [hzone, Zone.uncommented_ofStart, Zone.after_append,
          (code_of_not_quote fun c hc => not_quote_of_blank (hblank c hc)).2, hcode]
      have hspace : quote ≠ ' ' := ne_of_isQuote hquote rfl
      obtain rfl := eq_code_of_uncommented huncommented hspace (by rw [hrest, hlexeme]; rfl)
      exact ⟨before, leading ++ start, quote, body, later, by rw [hsplit], hlexeme, hplace,
        hquote, hbody, hsift⟩

end SourceLine

end ScriptLint
