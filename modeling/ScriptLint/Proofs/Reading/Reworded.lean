import Mathlib
import ScriptLint.Proofs.Reading.Cuts
import ScriptLint.Proofs.Reading.Extents
import ScriptLint.Proofs.Reading.Mapped

/-!
Reading a text whose identifiers are others of the same length.

* `StartsAlike`, `FollowsAlike`: two texts that end a token in front of them at the same place.
* `Token.extent_congr`: so the token goes as far before the one as before the other.
* `Token.KeepsWords`: a renaming of words that keeps their lengths and their kinds.
* `Token.renamed`, `Token.StandIn`: the tokens under other names, and a text in which they stand.
* `Token.read_renamed`: if it has the same blanks around them, they are its tokens.
-/

namespace ScriptLint

open Text (Within isBlank)

/-! ### Texts that start alike -/

/-- Two texts start with the same character, or both with one that starts an identifier, or both
are empty. -/
inductive StartsAlike : List Char → List Char → Prop
  | nil : StartsAlike [] []
  | same (c : Char) (rest later : List Char) : StartsAlike (c :: rest) (c :: later)
  | word {c d : Char} (first : Token.startsIdentifier c = true)
      (second : Token.startsIdentifier d = true) (rest later : List Char) :
      StartsAlike (c :: rest) (d :: later)

/-- They also do so behind a point that they start with. -/
structure FollowsAlike (text other : List Char) : Prop where
  starts : StartsAlike text other
  point : ∀ {rest later : List Char}, text = '.' :: rest → other = '.' :: later →
    StartsAlike rest later

variable {column : ℕ} {afterNumber : Bool} {c : Char} {own text other later later' : List Char}
  {kind : TokenKind}

/-- They do so behind the same characters. -/
lemma StartsAlike.append (h : StartsAlike later later') (own : List Char) :
    StartsAlike (own ++ later) (own ++ later') := by
  cases own with
  | nil => exact h
  | cons c rest => exact .same c _ _

namespace Token

/-! ### The extent of a token -/

/-- A run of characters that ends in front of texts which start alike ends there for both. -/
lemma length_takeWhile_congr {p : Char → Bool} {a : Bool}
    (hp : ∀ c, startsIdentifier c = true → p c = a) (h : StartsAlike later later')
    (hle : ((own ++ later).takeWhile p).length ≤ own.length) :
    ((own ++ later').takeWhile p).length = ((own ++ later).takeWhile p).length := by
  induction own with
  | nil =>
      cases h with
      | nil => rfl
      | same c rest rest' =>
          have hc : p c = false := by
            by_contra hc
            simp [Bool.not_eq_false _ ▸ hc] at hle
          simp [hc]
      | @word c d first second rest rest' =>
          have hc : p c = false := by
            by_contra hc
            simp [Bool.not_eq_false _ ▸ hc] at hle
          have hd : p d = false := by rw [hp d second, ← hp c first, hc]
          simp [hc, hd]
  | cons c rest ih =>
      simp only [List.cons_append, List.takeWhile_cons] at hle ⊢
      split_ifs at hle ⊢ with hc
      · simp only [List.length_cons, Nat.add_le_add_iff_right] at hle ⊢
        rw [ih hle]
      · rfl

lemma digitsLength_congr (h : StartsAlike later later')
    (hle : digitsLength (own ++ later) ≤ own.length) :
    digitsLength (own ++ later') = digitsLength (own ++ later) :=
  length_takeWhile_congr (fun _ => isDigit_of_startsIdentifier) h hle

lemma identifierLength_congr (h : StartsAlike later later')
    (hle : identifierLength (own ++ later) ≤ own.length) :
    identifierLength (own ++ later') = identifierLength (own ++ later) :=
  length_takeWhile_congr (fun _ => continuesIdentifier_of_starts) h hle

lemma fractionLength_congr (h : FollowsAlike later later')
    (hle : fractionLength (own ++ later) ≤ own.length) :
    fractionLength (own ++ later') = fractionLength (own ++ later) := by
  -- the point may be the first character of the texts that follow
  have hpoint : ∀ (own : List Char) {later later' : List Char}, StartsAlike later later' →
      fractionLength ('.' :: (own ++ later)) ≤ own.length + 1 →
        fractionLength ('.' :: (own ++ later')) = fractionLength ('.' :: (own ++ later)) := by
    intro own later later' hstarts hle
    have hdigits : digitsLength (own ++ later) ≤ own.length := by
      rw [fractionLength] at hle
      split_ifs at hle <;> omega
    rw [fractionLength, fractionLength, digitsLength_congr hstarts hdigits]
  cases own with
  | nil =>
      rw [List.nil_append] at hle ⊢
      rw [List.nil_append]
      obtain ⟨hstarts, hbehind⟩ := h
      cases hstarts with
      | nil => rfl
      | same c rest rest' =>
          by_cases hc : c = '.'
          · subst hc
            exact hpoint [] (hbehind rfl rfl) (Nat.le_succ_of_le hle)
          · rw [fractionLength_of_ne hc, fractionLength_of_ne hc]
      | word first second rest rest' =>
          have hne : ∀ {c : Char}, startsIdentifier c = true → c ≠ '.' := by
            rintro c hc rfl
            cases hc
          rw [fractionLength_of_ne (hne first), fractionLength_of_ne (hne second)]
  | cons c rest =>
      rw [List.cons_append] at hle ⊢
      rw [List.cons_append]
      by_cases hc : c = '.'
      · subst hc
        exact hpoint rest h.starts hle
      · rw [fractionLength_of_ne hc, fractionLength_of_ne hc]

lemma numeralLength_congr (h : FollowsAlike later later')
    (hle : numeralLength (own ++ later) ≤ own.length) :
    numeralLength (own ++ later') = numeralLength (own ++ later) := by
  rw [numeralLength] at hle
  have hdigits : digitsLength (own ++ later) ≤ own.length := by omega
  have hdrop : ∀ rest : List Char, (own ++ rest).drop (digitsLength (own ++ later)) =
      own.drop (digitsLength (own ++ later)) ++ rest := fun rest =>
    List.drop_append_of_le_length hdigits
  have hfraction : fractionLength (own.drop (digitsLength (own ++ later)) ++ later) ≤
      (own.drop (digitsLength (own ++ later))).length := by
    rw [← hdrop, List.length_drop]
    omega
  rw [numeralLength, digitsLength_congr h.starts hdigits, hdrop, fractionLength_congr h hfraction,
    ← hdrop, numeralLength]

lemma operatorExtent?_congr (h : StartsAlike later later') :
    operatorExtent? c (own ++ later') = operatorExtent? c (own ++ later) := by
  have hpair : (own ++ later').head?.bind (pairOperator? c) =
      (own ++ later).head?.bind (pairOperator? c) := by
    cases own with
    | cons first rest => rfl
    | nil =>
        cases h with
        | nil => rfl
        | same => rfl
        | word first second rest rest' =>
            exact (pairOperator?_of_startsIdentifier (.inr second)).trans
              (pairOperator?_of_startsIdentifier (.inr first)).symm
  rw [operatorExtent?, hpair, operatorExtent?]

lemma literalExtent_congr {quote : Char} (h : StartsAlike later later')
    (hlength : (literalExtent quote (own ++ later)).1 = own.length) :
    literalExtent quote (own ++ later') = literalExtent quote (own ++ later) := by
  have htake := literalExtent_take quote (own ++ later)
  rw [hlength, List.take_left] at htake
  cases hclosed : (literalExtent quote (own ++ later)).2 with
  | true => rw [literalExtent_append (by rw [htake, hclosed]), htake]
  | false =>
      -- an open literal is all that is left
      have hend := (literal_of_open hclosed).1
      rw [hlength, List.length_append] at hend
      obtain rfl := List.length_eq_zero_iff.mp (Nat.left_eq_add.mp hend)
      cases h
      rfl

/-- **The extent** of a token is the same before two texts that follow it alike. -/
theorem extent_congr (h : FollowsAlike later later')
    (hlength : (extent c (own ++ later)).2 = own.length) :
    extent c (own ++ later') = extent c (own ++ later) := by
  by_cases hnumber : (c.isDigit || (c == '.' && digitsLength (own ++ later) != 0)) = true
  · have hnumeral : numeralLength (own ++ later) ≤ own.length := by
      rw [extent, if_pos hnumber] at hlength
      exact hlength.le
    have hdigits : digitsLength (own ++ later) ≤ own.length :=
      (Nat.le_add_right _ _).trans hnumeral
    rw [extent, digitsLength_congr h.starts hdigits, if_pos hnumber, numeralLength_congr h hnumeral,
      extent, if_pos hnumber]
  · have hnumber' : ¬(c.isDigit || (c == '.' && digitsLength (own ++ later') != 0)) = true := by
      simp only [Bool.or_eq_true, Bool.and_eq_true, bne_iff_ne, beq_iff_eq, not_or, not_and,
        not_not] at hnumber ⊢
      refine ⟨hnumber.1, fun hpoint => ?_⟩
      rw [digitsLength_congr h.starts ((hnumber.2 hpoint).le.trans (Nat.zero_le _)),
        hnumber.2 hpoint]
    rw [extent, if_neg hnumber', extent, if_neg hnumber]
    rw [extent, if_neg hnumber] at hlength
    split_ifs at hlength ⊢ with hquote hword
    · rw [literalExtent_congr h.starts hlength]
    · rw [identifierLength_congr h.starts hlength.le]
      dsimp only at hlength ⊢
      rw [hlength, List.take_left, List.take_left]
    · rw [operatorExtent?_congr h.starts]

/-! ### Renamed tokens -/

/-- An identifier is a word that is no keyword, and does not stand right behind a numeral. -/
lemma Spells.of_identifier {lexeme : List Char} (h : Spells afterNumber later .identifier lexeme) :
    afterNumber = false ∧ isValidIdentifier lexeme = true ∧ wordKind lexeme = .identifier := by
  generalize hkind : TokenKind.identifier = kind at h
  cases h with
  | word after valid => exact ⟨after, valid, rfl⟩
  | _ => cases hkind

/-- New words are as long as the old ones, and of the same kind. -/
structure KeepsWords (rename : List Char → List Char) : Prop where
  length_eq : ∀ word, (rename word).length = word.length
  isValidIdentifier : ∀ word, isValidIdentifier (rename word) = isValidIdentifier word
  wordKind : ∀ word, wordKind (rename word) = wordKind word

/-- The token under its new name, if it is an identifier. -/
def renamed (rename : List Char → List Char) (token : Token) : Token :=
  if token.kind = .identifier then { token with lexeme := rename token.lexeme } else token

section Renamed

variable {rename : List Char → List Char}

lemma renamed_kind (token : Token) : (token.renamed rename).kind = token.kind := by
  rw [renamed]
  split_ifs <;> rfl

lemma renamed_column (token : Token) : (token.renamed rename).column = token.column := by
  rw [renamed]
  split_ifs <;> rfl

/-- Only its characters change. -/
lemma mk_renamed_lexeme (token : Token) :
    (⟨token.kind, (token.renamed rename).lexeme, token.column⟩ : Token) = token.renamed rename := by
  rw [renamed]
  split_ifs <;> rfl

lemma renamed_of_identifier {token : Token} (h : token.kind = .identifier) :
    token.renamed rename = { token with lexeme := rename token.lexeme } :=
  if_pos h

lemma renamed_of_ne {token : Token} (h : token.kind ≠ .identifier) :
    token.renamed rename = token :=
  if_neg h

lemma length_renamed (hrename : KeepsWords rename) (token : Token) :
    (token.renamed rename).lexeme.length = token.lexeme.length := by
  rw [renamed]
  split_ifs
  · exact hrename.length_eq token.lexeme
  · rfl

/-- The word that a text starts with goes on with the identifier characters behind it. -/
lemma identifierLength_append_of_valid (h : isValidIdentifier (c :: own) = true) :
    identifierLength (own ++ later) = own.length + identifierLength later := by
  rw [isValidIdentifier, Bool.and_eq_true, List.all_eq_true] at h
  rw [identifierLength, List.takeWhile_append_of_pos h.2, List.length_append, identifierLength]

/-- Another identifier of the same length is the token there. -/
lemma extent_of_identifier {d : Char} {own' : List Char} (hlater : StartsAlike later later')
    (hword : isValidIdentifier (c :: own) = true)
    (hextent : extent c (own ++ later) = (.identifier, own.length))
    (hword' : isValidIdentifier (d :: own') = true) (hkind : wordKind (d :: own') = .identifier)
    (hlength : own'.length = own.length) :
    extent d (own' ++ later') = (.identifier, own.length) := by
  have hstarts : ∀ {c : Char} {own : List Char}, isValidIdentifier (c :: own) = true →
      startsIdentifier c = true := fun h => (Bool.and_eq_true_iff.mp h).1
  rw [extent_word (hstarts hword), identifierLength_append_of_valid hword] at hextent
  have hend : identifierLength later = 0 := by
    have hmore := (Prod.mk.inj hextent).2
    omega
  have hend' : identifierLength later' = 0 := by
    have hsame : identifierLength ([] ++ later') = identifierLength ([] ++ later) :=
      identifierLength_congr hlater hend.le
    exact hsame.trans hend
  rw [extent_word (hstarts hword'), identifierLength_append_of_valid hword', hend', Nat.add_zero,
    List.take_left, hkind, hlength]

/-- Behind a token two texts follow alike where one starts with the renamed token. -/
lemma followsAlike_of_renamed {d : Char} {own' : List Char} {place : ℕ}
    (hrename : KeepsWords rename) (hspells : Spells afterNumber later kind (c :: own))
    (hlexeme : ((⟨kind, c :: own, place⟩ : Token).renamed rename).lexeme = d :: own')
    (hlater : StartsAlike later later') :
    FollowsAlike (c :: (own ++ later)) (d :: (own' ++ later')) := by
  by_cases hkind : kind = .identifier
  · subst hkind
    obtain ⟨-, hword, -⟩ := hspells.of_identifier
    have hword' := hrename.isValidIdentifier (c :: own)
    rw [renamed_of_identifier rfl] at hlexeme
    dsimp only at hlexeme
    rw [hlexeme, hword] at hword'
    refine ⟨.word (Bool.and_eq_true_iff.mp hword).1 (Bool.and_eq_true_iff.mp hword').1 _ _,
      fun heq => ?_⟩
    obtain ⟨rfl, -⟩ := List.cons.inj heq
    cases hword
  · rw [renamed_of_ne hkind] at hlexeme
    obtain ⟨rfl, rfl⟩ := List.cons.inj hlexeme
    refine ⟨.same c _ _, fun heq heq' => ?_⟩
    rw [← (List.cons.inj heq).2, ← (List.cons.inj heq').2]
    exact hlater.append own

/-- The step of reading at a renamed token. -/
lemma step_renamed {d : Char} {own' : List Char} {place : ℕ} (hrename : KeepsWords rename)
    (hspells : Spells afterNumber later kind (c :: own))
    (hstep : (if afterNumber && startsIdentifier c then
        (TokenKind.invalid c, identifierLength (own ++ later))
      else extent c (own ++ later)) = (kind, own.length))
    (hlater : FollowsAlike later later')
    (hlexeme : ((⟨kind, c :: own, place⟩ : Token).renamed rename).lexeme = d :: own') :
    (if afterNumber && startsIdentifier d then
        (TokenKind.invalid d, identifierLength (own' ++ later'))
      else extent d (own' ++ later')) = (kind, own.length) := by
  by_cases hkind : kind = .identifier
  · subst hkind
    obtain ⟨rfl, hword, hident⟩ := hspells.of_identifier
    rw [renamed_of_identifier rfl] at hlexeme
    dsimp only at hlexeme
    have hword' := hrename.isValidIdentifier (c :: own)
    have hident' := hrename.wordKind (c :: own)
    have hlength := hrename.length_eq (c :: own)
    rw [hlexeme] at hword' hident' hlength
    rw [Bool.false_and, if_neg Bool.false_ne_true] at hstep ⊢
    exact extent_of_identifier hlater.starts hword hstep (hword'.trans hword)
      (hident'.trans hident) (Nat.succ.inj hlength)
  · rw [renamed_of_ne hkind] at hlexeme
    obtain ⟨rfl, rfl⟩ := List.cons.inj hlexeme
    split_ifs at hstep ⊢ with hafter
    · obtain ⟨rfl, hlength⟩ := Prod.mk.inj hstep
      rw [identifierLength_congr hlater.starts hlength.le, hlength]
    · rw [extent_congr hlater (by rw [hstep]), hstep]

/-- The renamed tokens stand in a text that starts at a column. -/
def StandIn (rename : List Char → List Char) (column : ℕ) (tokens : List Token)
    (text : List Char) : Prop :=
  ∀ token ∈ tokens, (token.renamed rename).lexeme <+: text.drop (token.column - column)

section StandIn

variable {tokens : List Token}

lemma StandIn.tail {token : Token} (h : StandIn rename column (token :: tokens) text) :
    StandIn rename column tokens text :=
  fun other hother => h other (List.mem_cons_of_mem token hother)

/-- They stand behind the characters in front of them. -/
lemma StandIn.behind (h : StandIn rename column tokens (c :: text)) (more : ℕ)
    (hle : ∀ token ∈ tokens, column + 1 + more ≤ token.column) :
    StandIn rename (column + 1 + more) tokens (text.drop more) := by
  intro token htoken
  have hcolumn := hle token htoken
  have hplace : token.column - column =
      (more + (token.column - (column + 1 + more))) + 1 := by omega
  have hprefix := h token htoken
  rwa [hplace, List.drop_succ_cons, ← List.drop_drop] at hprefix

/-- The text starts with the first token, if this stands at the start. -/
lemma StandIn.lexeme_eq (hrename : KeepsWords rename)
    (h : StandIn rename column (⟨kind, c :: own, column⟩ :: tokens) text) :
    ((⟨kind, c :: own, column⟩ : Token).renamed rename).lexeme = text.take (own.length + 1) := by
  have hprefix := List.prefix_iff_eq_take.mp (h _ List.mem_cons_self)
  rwa [length_renamed hrename, Nat.sub_self, List.drop_zero, List.length_cons] at hprefix

end StandIn

/-- **The tokens** of a text with other identifiers. The induction is along the reading; it also
says how the text starts, as the token in front of it must end there. -/
theorem read_renamed {f : Char → Char} (hf : Within continuesIdentifier f)
    (hrename : KeepsWords rename) (hmap : other.map f = text.map f)
    (hstands : StandIn rename column (read column afterNumber text) other) :
    FollowsAlike text other ∧
      read column afterNumber other = (read column afterNumber text).map (renamed rename) := by
  have hwords : ∀ c, continuesIdentifier c = true → isBlank c = false :=
    fun c hc => (isPlain_of_continuesIdentifier hc).not_blank
  fun_induction read column afterNumber text generalizing other with
  | case1 =>
      obtain rfl := List.map_eq_nil_iff.mp hmap
      exact ⟨⟨.nil, fun heq => by cases heq⟩, read.eq_1 _ _⟩
  | case2 column afterNumber c rest hblank ih =>
      obtain ⟨d, rest', rfl, hchar, hrest⟩ := List.map_eq_cons_iff.mp hmap
      obtain rfl : d = c := by
        refine (hf.eq_or hchar).resolve_right fun hclass => ?_
        rw [hwords c hclass.2] at hblank
        cases hblank
      obtain ⟨-, hread⟩ := ih hrest (hstands.behind 0 fun token => (reads_read _ _ _).le_column)
      refine ⟨⟨.same d _ _, fun heq => ?_⟩, ?_⟩
      · obtain ⟨rfl, -⟩ := List.cons.inj heq
        cases hblank
      · rw [read, if_pos hblank, hread]
  | case3 column afterNumber c rest hblank kind more hstep ih =>
      obtain ⟨d, rest', rfl, hchar, hrest⟩ := List.map_eq_cons_iff.mp hmap
      rw [Bool.not_eq_true] at hblank
      rw [dite_eq_ite] at hstep
      obtain ⟨hle, hspells⟩ := spells_step hblank hstep
      have hsplit : rest.take more ++ rest.drop more = rest := List.take_append_drop _ _
      have hsplit' : rest'.take more ++ rest'.drop more = rest' := List.take_append_drop _ _
      have hown : (rest.take more).length = more := List.length_take_of_le hle
      have hlexeme := hstands.lexeme_eq hrename
      rw [hown, List.take_succ_cons] at hlexeme
      have hmore : (rest'.drop more).map f = (rest.drop more).map f := by
        rw [List.map_drop, List.map_drop, hrest]
      obtain ⟨hfollows, hread⟩ :=
        ih hmore (hstands.tail.behind more fun token => (reads_read _ _ _).le_column)
      constructor
      · rw [← hsplit, ← hsplit']
        exact followsAlike_of_renamed hrename hspells hlexeme hfollows.starts
      · have hplain : isBlank d = false := by
          rw [← hf.isBlank_apply hwords d, hchar, hf.isBlank_apply hwords c, hblank]
        have hstep' := step_renamed hrename hspells (by rw [hsplit, hown, hstep]) hfollows hlexeme
        rw [hsplit', hown] at hstep'
        rw [read, if_neg (Bool.eq_false_iff.mp hplain)]
        simp only [hstep', hread, List.map_cons, ← hlexeme]
        exact congrArg (· :: _) (mk_renamed_lexeme ⟨kind, c :: rest.take more, column⟩)

end Renamed

end Token

end ScriptLint
