import ScriptLint.Proofs.Text.Hex
import ScriptLint.Toml.Quoting

/-!
TOML strings read back.

* `Escapes.read`: an escape is read as the character that it is written for.
* `readLineString_basic`, `readLineString_literal`: strings on one line.
* `BlockBody`: what may stand in a string over several lines, runs of quotes included.
* `IsQuoted`, `isQuoted_writeString`: strings of every kind are read back.
-/

namespace ScriptLint.Toml

/-! ### Escapes -/

section Escapes

variable {c : Char} {rest text : List Char}

/-- A character is read from its code in capital letters. -/
lemma readCodePoint_upperQuad (h : c.toNat < 0x10000) (rest : List Char) :
    readCodePoint 4 (upperQuad c.toNat ++ rest) = some (c, rest) := by
  have hvalues := Text.mapM_map_hexQuad Text.hexValue?_toUpper c.toNat
  have hnumber := Text.numberOf_quadValues h
  have hlength : (upperQuad c.toNat).length = 4 := rfl
  have hvalid : c.toNat.isValidChar := c.valid
  rw [readCodePoint, List.take_left' hlength, List.drop_left' hlength, if_pos hlength, upperQuad,
    hvalues]
  simp only [Option.bind_eq_bind, Option.bind_some, hnumber, hvalid, if_true, Char.ofNat_toNat]

/-- The escape of a character: what stands behind the backslash. -/
inductive Escapes : Char → List Char → Prop
  | backspace : Escapes '\x08' ['b']
  | tab : Escapes '\t' ['t']
  | lineFeed : Escapes '\n' ['n']
  | formFeed : Escapes '\x0c' ['f']
  | carriageReturn : Escapes '\r' ['r']
  | quote : Escapes '"' ['"']
  | backslash : Escapes '\\' ['\\']
  | code {c : Char} (h : c.toNat < 0x10000) : Escapes c ('u' :: upperQuad c.toNat)

namespace Escapes

/-- An escape is read as its character. -/
lemma read (h : Escapes c text) (rest : List Char) :
    readStringEscape (text ++ rest) = some (c, rest) := by
  cases h with
  | code h => exact readCodePoint_upperQuad h rest
  | _ => rfl

/-- An escape hides no line ending. -/
lemma not_hidden (h : Escapes c text) (rest : List Char) :
    afterHiddenEnding? (text ++ rest) = none := by
  cases h <;> rfl

end Escapes

/-- A character of a basic string stands for itself or is escaped. -/
lemma escapeStringChar_cases (overLines : Bool) (c : Char) :
    (∃ escape, escapeStringChar overLines c = '\\' :: escape ∧ Escapes c escape) ∨
      (escapeStringChar overLines c = [c] ∧ c ≠ '\\' ∧ c ≠ '\r' ∧
        (isPlainChar c = true ∨ (overLines = true ∧ c = '\n'))) := by
  rw [escapeStringChar]
  split_ifs with h₁ h₂ h₃ h₄ h₅ h₆ h₇ h₈
  · exact .inl ⟨_, rfl, h₁ ▸ .backspace⟩
  · exact .inl ⟨_, rfl, h₂ ▸ .tab⟩
  · exact .inr ⟨by rw [h₃], h₃ ▸ by decide, h₃ ▸ by decide, .inr ⟨h₄, h₃⟩⟩
  · exact .inl ⟨_, rfl, h₃ ▸ .lineFeed⟩
  · exact .inl ⟨_, rfl, h₅ ▸ .formFeed⟩
  · exact .inl ⟨_, rfl, h₆ ▸ .carriageReturn⟩
  · exact .inl ⟨_, rfl, h₇ ▸ .backslash⟩
  · exact .inr ⟨rfl, h₇, h₆, .inl h₈⟩
  · refine .inl ⟨_, rfl, .code ?_⟩
    rw [isPlainChar] at h₈
    simp only [Bool.or_eq_true, beq_iff_eq, Bool.and_eq_true, decide_eq_true_eq, bne_iff_ne,
      not_or, not_and] at h₈
    omega

end Escapes

/-! ### One line -/

section Lines

variable {quote c : Char} {bound : ℕ} {rest text piece : List Char}

/-- The characters of a string behind one more character. -/
def withChar (c : Char) (found : List Char × List Char) : List Char × List Char :=
  (c :: found.1, found.2)

lemma readLineString_escape (h : Escapes c piece) (bound : ℕ) (rest : List Char) :
    readLineString '"' (bound + 1) ('\\' :: (piece ++ rest)) =
      (readLineString '"' bound rest).map (withChar c) := by
  rw [readLineString, if_neg (by decide), if_pos (by decide), h.read]
  simp only [Option.bind_eq_bind, Option.bind_some]
  cases readLineString '"' bound rest <;> rfl

/-- No escape begins with the character, between these quotes. -/
lemma not_escapes (hescape : c = '\\' → quote ≠ '"') :
    ¬ (decide (c = '\\') && decide (quote = '"')) = true := by
  simp only [Bool.and_eq_true, decide_eq_true_eq, not_and]
  exact hescape

lemma readLineString_plain (hquote : c ≠ quote) (hescape : c = '\\' → quote ≠ '"')
    (hplain : isPlainChar c = true) (bound : ℕ) (rest : List Char) :
    readLineString quote (bound + 1) (c :: rest) =
      (readLineString quote bound rest).map (withChar c) := by
  rw [readLineString, if_neg hquote, if_neg (not_escapes hescape), if_pos hplain]
  cases readLineString quote bound rest <;> rfl

/-- A basic string on one line. -/
lemma readLineString_basic (run : ℕ) (h : text.length < bound) (rest : List Char) :
    readLineString '"' bound (escapeFrom false run text ++ '"' :: rest) = some (text, rest) := by
  induction text generalizing run bound with
  | nil =>
      obtain ⟨bound, rfl⟩ := Nat.exists_eq_add_of_le' (Nat.one_le_of_lt h)
      rfl
  | cons c text ih =>
      rw [List.length_cons] at h
      obtain ⟨bound, rfl⟩ := Nat.exists_eq_add_of_le' (by omega : 1 ≤ bound)
      have hmore : ∀ run, (readLineString '"' bound
          (escapeFrom false run text ++ '"' :: rest)).map (withChar c) = some (c :: text, rest) :=
        fun run => by rw [ih run (by omega)]; rfl
      rw [escapeFrom]
      split_ifs with hquote hrun
      · exact absurd hrun (Nat.not_lt_zero run)
      · subst hquote
        exact (readLineString_escape .quote bound _).trans (hmore 0)
      · rw [List.append_assoc]
        obtain ⟨escape, hpiece, hescape⟩ | ⟨hpiece, hbackslash, -, hplain⟩ :=
          escapeStringChar_cases false c
        · rw [hpiece]
          exact (readLineString_escape hescape bound _).trans (hmore 0)
        · have hplain := hplain.resolve_right fun h => Bool.false_ne_true h.1
          rw [hpiece]
          exact (readLineString_plain hquote (fun h => absurd h hbackslash) hplain bound _).trans
            (hmore 0)

/-- A literal string on one line. -/
lemma readLineString_literal (hplain : ∀ c ∈ text, isPlainChar c = true ∧ c ≠ '\'')
    (h : text.length < bound) (rest : List Char) :
    readLineString '\'' bound (text ++ '\'' :: rest) = some (text, rest) := by
  induction text generalizing bound with
  | nil =>
      obtain ⟨bound, rfl⟩ := Nat.exists_eq_add_of_le' (Nat.one_le_of_lt h)
      rfl
  | cons c text ih =>
      rw [List.length_cons] at h
      obtain ⟨bound, rfl⟩ := Nat.exists_eq_add_of_le' (by omega : 1 ≤ bound)
      obtain ⟨hchar, hquote⟩ := hplain c List.mem_cons_self
      rw [List.cons_append, readLineString_plain hquote (fun _ => by decide) hchar,
        ih (fun c hc => hplain c (List.mem_cons_of_mem _ hc)) (by omega)]
      rfl

end Lines

/-! ### Several lines -/

/-- A piece of a string over several lines is read as one character. -/
structure ReadsAs (quote c : Char) (piece : List Char) : Prop where
  head_ne : ∀ first ∈ piece.head?, first ≠ quote
  ne_nil : piece ≠ []
  read : ∀ bound rest, readBlockString quote (bound + 1) (piece ++ rest) =
    (readBlockString quote bound rest).map (withChar c)

/-- What may stand in a string over several lines for a text, behind a number of quotes in a
row: pieces for single characters, and at most two quotes in a row. -/
inductive BlockBody (quote : Char) : ℕ → List Char → List Char → Prop
  | nil (run : ℕ) : BlockBody quote run [] []
  | quote {run : ℕ} {text body : List Char} (hrun : run < 2)
      (h : BlockBody quote (run + 1) text body) :
      BlockBody quote run (quote :: text) (quote :: body)
  | piece {run : ℕ} {c : Char} {text piece body : List Char} (hpiece : ReadsAs quote c piece)
      (h : BlockBody quote 0 text body) : BlockBody quote run (c :: text) (piece ++ body)

section Blocks

variable {quote c : Char} {run bound : ℕ} {text body rest piece : List Char}

/-- The quotes at the start of what is left of a string: they go on to its end, or there are
few of them. -/
lemma BlockBody.leading (h : BlockBody quote run text body) (hrun : run ≤ 2)
    (hrest : ∀ first ∈ rest.head?, first ≠ quote) :
    (∃ count, count + run ≤ 2 ∧ text = List.replicate count quote ∧
      body = List.replicate count quote ∧
      ((body ++ (quote :: quote :: quote :: rest)).takeWhile (· == quote)).length = count + 3) ∨
      ((body ++ (quote :: quote :: quote :: rest)).takeWhile (· == quote)).length + run ≤ 2 := by
  have hnone : ∀ {text : List Char}, (∀ first ∈ text.head?, first ≠ quote) →
      text.takeWhile (· == quote) = [] := by
    intro text htext
    cases text with
    | nil => rfl
    | cons first text => rw [List.takeWhile_cons, beq_eq_false_iff_ne.mpr (htext first rfl)]; rfl
  induction h with
  | nil run =>
      refine .inl ⟨0, by omega, rfl, rfl, ?_⟩
      simp [hnone hrest]
  | @quote run text body hless h ih =>
      rw [List.cons_append, List.takeWhile_cons, beq_self_eq_true, if_pos rfl, List.length_cons]
      rcases ih (by omega) with ⟨count, hcount, htext, hbody, hlength⟩ | hlength
      · exact .inl ⟨count + 1, by omega, by rw [htext]; rfl, by rw [hbody]; rfl, by omega⟩
      · exact .inr (by omega)
  | @piece run c text piece body hpiece h ih =>
      right
      obtain ⟨first, more, rfl⟩ := List.exists_cons_of_ne_nil hpiece.ne_nil
      have hfirst : first ≠ quote := hpiece.head_ne first rfl
      rw [List.append_assoc, List.cons_append, hnone (by rintro _ ⟨⟩; exact hfirst)]
      simpa using hrun

/-- A string over several lines is read up to its closing quotes. -/
lemma BlockBody.read (h : BlockBody quote run text body) (hrun : run ≤ 2)
    (hrest : ∀ first ∈ rest.head?, first ≠ quote) (hbound : text.length < bound) :
    readBlockString quote bound (body ++ (quote :: quote :: quote :: rest)) =
      some (text, rest) := by
  induction h generalizing bound with
  | nil run =>
      obtain ⟨bound, rfl⟩ := Nat.exists_eq_add_of_le' (Nat.one_le_of_lt hbound)
      have hnone : rest.takeWhile (· == quote) = [] := by
        cases rest with
        | nil => rfl
        | cons first rest =>
            rw [List.takeWhile_cons, beq_eq_false_iff_ne.mpr (hrest first rfl)]
            rfl
      rw [List.nil_append, readBlockString, if_pos rfl]
      simp [hnone]
  | @quote run text body hless h ih =>
      rw [List.length_cons] at hbound
      obtain ⟨bound, rfl⟩ := Nat.exists_eq_add_of_le' (by omega : 1 ≤ bound)
      rw [List.cons_append, readBlockString, if_pos rfl]
      dsimp only
      rcases h.leading (by omega) hrest with ⟨count, hcount, htext, hbody, hlength⟩ | hlength
      · -- only quotes are left, which are told apart from the closing ones by their number
        rw [hlength, if_pos (by omega)]
        have hown : min (1 + (count + 3) - 3) 2 = count + 1 := by omega
        have hall : quote :: (List.replicate count quote ++ (quote :: quote :: quote :: rest)) =
            List.replicate (count + 1 + 3) quote ++ rest := by
          rw [add_right_comm, List.replicate_succ, List.replicate_add, List.cons_append,
            List.append_assoc]
          rfl
        rw [hown, htext, hbody, hall, List.drop_left' List.length_replicate]
        rfl
      · rw [if_neg (by omega), ih (by omega) (by omega)]
        rfl
  | @piece run c text piece body hpiece h ih =>
      rw [List.length_cons] at hbound
      obtain ⟨bound, rfl⟩ := Nat.exists_eq_add_of_le' (by omega : 1 ≤ bound)
      rw [List.append_assoc, hpiece.read, ih (by omega) (by omega)]
      rfl

/-- An escape is a piece of a basic string. -/
lemma readsAs_escape (h : Escapes c piece) : ReadsAs '"' c ('\\' :: piece) where
  head_ne := by rintro _ ⟨⟩; decide
  ne_nil := List.cons_ne_nil _ _
  read bound rest := by
    rw [List.cons_append, readBlockString, if_neg (by decide), if_pos (by decide),
      h.not_hidden, h.read]
    simp only [Option.bind_eq_bind, Option.bind_some]
    cases readBlockString '"' bound rest <;> rfl

/-- A character that stands for itself is a piece, and so is a line feed. -/
lemma readsAs_self (hquote : c ≠ quote) (hescape : c = '\\' → quote ≠ '"')
    (hchar : isPlainChar c = true ∨ c = '\n') : ReadsAs quote c [c] where
  head_ne := by rintro _ ⟨⟩; exact hquote
  ne_nil := List.cons_ne_nil _ _
  read bound rest := by
    rw [List.singleton_append, readBlockString, if_neg hquote, if_neg (not_escapes hescape)]
    by_cases hplain : isPlainChar c = true
    · rw [if_pos hplain]
      cases readBlockString quote bound rest <;> rfl
    · obtain rfl := hchar.resolve_left hplain
      rw [if_neg hplain, afterNewLine?]
      dsimp only
      cases readBlockString quote bound rest <;> rfl

/-- The text of a basic string over several lines. -/
lemma blockBody_escapeFrom (hrun : run ≤ 2) (text : List Char) :
    BlockBody '"' run text (escapeFrom true run text) := by
  induction text generalizing run with
  | nil => exact .nil run
  | cons c text ih =>
      rw [escapeFrom]
      split_ifs with hquote hless
      · subst hquote
        exact .quote hless (ih hless)
      · subst hquote
        exact .piece (readsAs_escape .quote) (ih (by decide))
      · refine .piece ?_ (ih (by decide))
        obtain ⟨escape, hpiece, hescape⟩ | ⟨hpiece, hbackslash, -, hchar⟩ :=
          escapeStringChar_cases true c
        · rw [hpiece]
          exact readsAs_escape hescape
        · rw [hpiece]
          exact readsAs_self hquote (fun h => absurd h hbackslash) (hchar.imp_right And.right)

lemma le_longestRunFrom (mark : Char) (run : ℕ) (text : List Char) :
    run ≤ longestRunFrom mark run text := by
  induction text generalizing run with
  | nil => exact le_rfl
  | cons c text ih =>
      rw [longestRunFrom]
      split_ifs
      · exact (Nat.le_succ run).trans (ih (run + 1))
      · exact le_max_left _ _

/-- The text of a literal string over several lines. -/
lemma blockBody_literal (hrun : longestRunFrom '\'' run text ≤ 2)
    (hchars : ∀ c ∈ text, isPlainChar c = true ∨ c = '\n') : BlockBody '\'' run text text := by
  induction text generalizing run with
  | nil => exact .nil run
  | cons c text ih =>
      have hmore := fun c hc => hchars c (List.mem_cons_of_mem _ hc)
      rw [longestRunFrom] at hrun
      split_ifs at hrun with hquote
      · subst hquote
        have hless : run + 1 ≤ 2 := (le_longestRunFrom '\'' (run + 1) text).trans hrun
        exact .quote hless (ih hrun hmore)
      · exact .piece (readsAs_self hquote (fun _ => by decide) (hchars c List.mem_cons_self))
          (ih (le_of_max_le_right hrun) hmore)

end Blocks

/-! ### Strings of any kind -/

section Quoted

variable {quote : Char} {text body rest : List Char}

/-- A string on one line, behind its opening quote. -/
lemma readQuoted_line (hbody : ∀ first ∈ body.head?, first ≠ quote)
    (hrest : ∀ first ∈ rest.head?, first ≠ quote)
    (hread : ∀ bound, body.length < bound →
      readLineString quote bound (body ++ quote :: rest) = some (text, rest)) :
    readQuoted quote (body ++ quote :: rest) = some (String.ofList text, rest) := by
  have hline : readQuoted.onLine quote (body ++ quote :: rest) =
      some (String.ofList text, rest) := by
    rw [readQuoted.onLine, hread _ (by rw [List.length_append]; omega)]
    rfl
  have hno : ∀ tail, body ++ quote :: rest ≠ quote :: quote :: tail := by
    intro tail h
    cases body with
    | nil =>
        have hsame := (List.cons.inj h).2
        exact hrest quote (by rw [hsame]; rfl) rfl
    | cons first body => exact hbody first rfl (List.cons.inj h).1
  rw [← hline]
  unfold readQuoted
  split
  · rename_i a b tail heq
    split_ifs with hquotes
    · simp only [Bool.and_eq_true, decide_eq_true_eq] at hquotes
      exact absurd (heq.trans (by rw [hquotes.1, hquotes.2])) (hno tail)
    · rfl
  · rfl

lemma skipNewLine_of_head (h : ∀ first ∈ text.head?, first ≠ '\n' ∧ first ≠ '\r') :
    skipNewLine text = text := by
  cases text with
  | nil => rfl
  | cons first text =>
      obtain ⟨hfeed, hreturn⟩ := h first rfl
      have hnone : afterNewLine? (first :: text) = none :=
        afterNewLine?.eq_3 _ (fun _ h => hfeed (List.cons.inj h).1)
          (fun _ h => hreturn (List.cons.inj h).1)
      rw [skipNewLine, hnone]
      rfl

/-- A string over several lines, behind its first quote. A text with line feeds starts on a line
of its own. -/
lemma readQuoted_block (hblock : BlockBody quote 0 text body)
    (hlength : text.length ≤ body.length) (hrest : ∀ first ∈ rest.head?, first ≠ quote)
    (hfeed : quote ≠ '\n' ∧ quote ≠ '\r')
    (hhead : text.contains '\n' = false → ∀ first ∈ body.head?, first ≠ '\n' ∧ first ≠ '\r') :
    readQuoted quote (quote :: quote :: ((if text.contains '\n' then ['\n'] else []) ++
      (body ++ (quote :: quote :: quote :: rest)))) = some (String.ofList text, rest) := by
  have hskip : skipNewLine ((if text.contains '\n' then ['\n'] else []) ++
      (body ++ (quote :: quote :: quote :: rest))) = body ++ (quote :: quote :: quote :: rest) := by
    cases hcontains : text.contains '\n' with
    | true => rfl
    | false =>
        refine skipNewLine_of_head fun first hfirst => ?_
        cases body with
        | nil => exact Option.some.inj hfirst ▸ hfeed
        | cons c body => exact hhead hcontains first hfirst
  have hbound : text.length < (quote :: quote :: ((if text.contains '\n' then ['\n'] else []) ++
      (body ++ (quote :: quote :: quote :: rest)))).length + 1 := by
    simp only [List.length_cons, List.length_append]
    omega
  rw [readQuoted]
  simp only [decide_true, Bool.and_self, if_true, hskip,
    hblock.read (Nat.zero_le 2) hrest hbound]
  rfl

end Quoted

namespace StringKind

/-- A kind without escapes is taken only if it suits the text. -/
lemma suits_ofText {text : List Char} (h : (ofText text).hasEscapes = false) :
    (ofText text).suits text = true := by
  rw [ofText] at h ⊢
  split at h
  · rename_i kind hfind
    exact List.find?_some hfind
  · split_ifs at h <;> cases h

end StringKind

section Written

variable {text rest : List Char}

/-- The first character of a basic string is no line ending, unless the text starts with one. -/
lemma head_escapeFrom {overLines : Bool} (run : ℕ) (h : text.contains '\n' = false) :
    ∀ first ∈ (escapeFrom overLines run text).head?, first ≠ '\n' ∧ first ≠ '\r' := by
  intro first hfirst
  cases text with
  | nil => cases hfirst
  | cons c text =>
      have hfeed : c ≠ '\n' := by
        rintro rfl
        simp at h
      rw [escapeFrom] at hfirst
      split_ifs at hfirst
      · obtain rfl := Option.some.inj hfirst
        decide
      · obtain rfl := Option.some.inj hfirst
        decide
      · obtain ⟨escape, hpiece, -⟩ | ⟨hpiece, -, hreturn, -⟩ := escapeStringChar_cases overLines c
        · rw [hpiece] at hfirst
          obtain rfl := Option.some.inj hfirst
          decide
        · rw [hpiece] at hfirst
          obtain rfl := Option.some.inj hfirst
          exact ⟨hfeed, hreturn⟩

/-- The first character of a basic string on one line is no quote. -/
lemma head_escapeFrom_ne_quote (text : List Char) :
    ∀ first ∈ (escapeFrom false 0 text).head?, first ≠ '"' := by
  intro first hfirst
  cases text with
  | nil => cases hfirst
  | cons c text =>
      rw [escapeFrom] at hfirst
      split_ifs at hfirst with hquote hrun
      · exact absurd hrun (Nat.not_lt_zero 0)
      · obtain rfl := Option.some.inj hfirst
        decide
      · obtain ⟨escape, hpiece, -⟩ | ⟨hpiece, -⟩ := escapeStringChar_cases false c
        · rw [hpiece] at hfirst
          obtain rfl := Option.some.inj hfirst
          decide
        · rw [hpiece] at hfirst
          obtain rfl := Option.some.inj hfirst
          exact hquote

lemma length_le_length_escapeFrom (overLines : Bool) (run : ℕ) (text : List Char) :
    text.length ≤ (escapeFrom overLines run text).length := by
  induction text generalizing run with
  | nil => exact le_rfl
  | cons c text ih =>
      rw [escapeFrom]
      split_ifs
      · exact Nat.succ_le_succ (ih _)
      · exact (Nat.succ_le_succ (ih 0)).trans (Nat.le_succ _)
      · have hone : 1 ≤ (escapeStringChar overLines c).length := by
          obtain ⟨escape, hpiece, -⟩ | ⟨hpiece, -⟩ := escapeStringChar_cases overLines c <;>
            rw [hpiece] <;> simp
        have := ih 0
        rw [List.length_append, List.length_cons]
        omega

/-- A text is read as the string that holds these characters, before what does not start with its
quote. -/
def IsQuoted (word text : List Char) : Prop :=
  ∃ quote inner, word = quote :: inner ∧ (quote = '"' ∨ quote = '\'') ∧
    ∀ rest, (∀ first ∈ rest.head?, first ≠ quote) →
      readQuoted quote (inner ++ rest) = some (String.ofList text, rest)

lemma isQuoted_basic (text : List Char) : IsQuoted (StringKind.basic.write text) text := by
  refine ⟨'"', escapeFrom false 0 text ++ ['"'], rfl, .inl rfl, fun rest hrest => ?_⟩
  rw [List.append_assoc]
  exact readQuoted_line (head_escapeFrom_ne_quote _) hrest fun bound hbound =>
    readLineString_basic 0 ((length_le_length_escapeFrom false 0 _).trans_lt hbound) rest

lemma isQuoted_literal (h : StringKind.literal.suits text = true) :
    IsQuoted (StringKind.literal.write text) text := by
  simp only [StringKind.suits, isPrintable, Bool.and_eq_true, List.all_eq_true,
    Bool.or_eq_true, beq_iff_eq, bne_iff_ne] at h
  have hplain : ∀ c ∈ text, isPlainChar c = true ∧ c ≠ '\'' := fun c hc =>
    ⟨(h.1 c hc).resolve_right (h.2 c hc).2, (h.2 c hc).1⟩
  refine ⟨'\'', text ++ ['\''], rfl, .inr rfl, fun rest hrest => ?_⟩
  rw [List.append_assoc]
  exact readQuoted_line (fun first hfirst => (hplain first (List.mem_of_mem_head? hfirst)).2) hrest
    fun bound hbound => readLineString_literal hplain hbound rest

lemma isQuoted_basicLines (text : List Char) :
    IsQuoted (StringKind.basicLines.write text) text := by
  refine ⟨'"', '"' :: '"' :: ((if text.contains '\n' then ['\n'] else []) ++
    escapeFrom true 0 text ++ ['"', '"', '"']), rfl, .inl rfl, fun rest hrest => ?_⟩
  simp only [List.cons_append, List.append_assoc, List.nil_append]
  exact readQuoted_block (blockBody_escapeFrom (Nat.zero_le 2) text)
    (length_le_length_escapeFrom true 0 _) hrest (by decide) (head_escapeFrom 0)

lemma isQuoted_literalLines (h : StringKind.literalLines.suits text = true) :
    IsQuoted (StringKind.literalLines.write text) text := by
  simp only [StringKind.suits, isPrintable, Bool.and_eq_true, List.all_eq_true,
    Bool.or_eq_true, beq_iff_eq, decide_eq_true_eq] at h
  have hhead : text.contains '\n' = false →
      ∀ first ∈ text.head?, first ≠ '\n' ∧ first ≠ '\r' := by
    intro hnone first hfirst
    have hmem := List.mem_of_mem_head? hfirst
    have hfeed : first ≠ '\n' := by
      rintro rfl
      rw [List.contains_eq_mem, decide_eq_false_iff_not] at hnone
      exact hnone hmem
    refine ⟨hfeed, ?_⟩
    rintro rfl
    exact absurd ((h.1 _ hmem).resolve_right hfeed) (by decide)
  refine ⟨'\'', '\'' :: '\'' :: ((if text.contains '\n' then ['\n'] else []) ++
    text ++ ['\'', '\'', '\'']), rfl, .inr rfl, fun rest hrest => ?_⟩
  simp only [List.cons_append, List.append_assoc, List.nil_append]
  exact readQuoted_block (blockBody_literal h.2 h.1) le_rfl hrest (by decide) hhead

/-- **Strings** of every kind are read back. -/
theorem isQuoted_writeString (value : String) : IsQuoted (writeString value) value.toList := by
  have hsuits := @StringKind.suits_ofText value.toList
  rw [writeString]
  cases hkind : StringKind.ofText value.toList with
  | basic => exact isQuoted_basic _
  | literal =>
      rw [hkind] at hsuits
      exact isQuoted_literal (hsuits rfl)
  | basicLines => exact isQuoted_basicLines _
  | literalLines =>
      rw [hkind] at hsuits
      exact isQuoted_literalLines (hsuits rfl)

end Written

end ScriptLint.Toml
