import Mathlib
import ScriptLint.Proofs.Reading.Tokens

/-!
Code, literals and comments in a line.

* `Stretch`, `stretches`: what each character of a line is part of, as the
  automaton goes over it; `CodeAt`: a character outside literals and comments.
* `Zone.step_cases`: the automaton blanks the characters of comments, and goes on
  with the others as it would without comment markers.
* `Zone.next`, `Zone.after`: the zone behind a text in which no comments are looked
  for; `stretches_append` cuts such a text in two, `stretches_literal` finds the end
  of a literal.
* `shown_cases`: what becomes of a character when a line is sifted; with it
  `codeAt_sift_iff`: sifting keeps what is code.
* `Token.Spells.stretches_eq`: a token is one stretch.
* `Token.Reads.codeAt_bracket_iff`: the bracket tokens of a text are the brackets
  in its code.
-/

namespace ScriptLint

open Text (isBlank)

/-! ### Stretches of a line -/

/-- What a character of a line is part of. -/
inductive Stretch where
  | code | literal | comment
deriving DecidableEq, Repr

/-- What a character is part of that leads from the one zone to the other. The
quotes are part of their literal, the markers part of their comment. -/
def Zone.stretch : Zone → Zone → Stretch
  | code, code => .code
  | code, literal _ => .literal
  | code, _ => .comment
  | literal _, _ => .literal
  | escape _, _ => .literal
  | comment, _ => .comment
  | marker _ _, _ => .comment

/-- What the characters of a line are part of, from a zone on. From a line comment
on, all is comment. -/
def stretches (markers : Markers) : Zone → List Char → List Stretch
  | _, [] => []
  | zone, c :: rest =>
    match zone.step markers c rest with
    | none => .comment :: rest.map fun _ => .comment
    | some (_, next) => zone.stretch next :: stretches markers next rest

/-- The character stands at the index of the line, outside literals and comments. -/
def CodeAt (markers : Markers) (zone : Zone) (text : List Char) (index : Nat)
    (c : Char) : Prop :=
  text[index]? = some c ∧ (stretches markers zone text)[index]? = some .code

/-- No comments at all. -/
def Markers.absent : Markers := ⟨[], [], []⟩

/-- The zone in the line without its comments. -/
def Zone.uncommented : Zone → Zone
  | code => code
  | literal quote => literal quote
  | escape quote => escape quote
  | comment => code
  | marker _ _ => code

/-! ### Steps of the automaton -/

section Steps

variable {markers : Markers} {zone next : Zone} {c d shown : Char} {rest : List Char}

lemma Zone.uncommented_afterMarker (opening : Bool) (more : Nat) :
    (Zone.afterMarker opening more).uncommented = .code := by
  cases more <;> cases opening <;> rfl

lemma Zone.stretch_code_afterMarker (more : Nat) :
    Zone.stretch .code (Zone.afterMarker true more) = .comment := by
  cases more <;> rfl

/-- Without markers, a character in code opens a literal or is code. -/
lemma Zone.step_code_absent :
    Zone.step .absent .code d rest =
      if Zone.isQuote d then some (d, .literal d) else some (d, .code) := by
  simp [Zone.step, Markers.standsAt, Markers.absent]

/-- What the automaton does with a character: it blanks one of a comment, and goes
on in the code, or it keeps one outside comments, and goes on as it would without
comment markers. -/
lemma Zone.step_cases (h : zone.step markers d rest = some (shown, next)) :
    (shown = ' ' ∧ zone.stretch next = .comment ∧ zone.uncommented = .code ∧
        next.uncommented = .code) ∨
      (shown = d ∧ zone.uncommented = zone ∧ next.uncommented = next ∧
        ∀ later, zone.step .absent d later = some (d, next)) := by
  cases zone with
  | code =>
      rw [Zone.step] at h
      split_ifs at h with hline hopen hquote
      · obtain ⟨rfl, rfl⟩ := Prod.mk.inj (Option.some.inj h)
        exact .inl ⟨rfl, Zone.stretch_code_afterMarker _, rfl,
          Zone.uncommented_afterMarker _ _⟩
      · obtain ⟨rfl, rfl⟩ := Prod.mk.inj (Option.some.inj h)
        refine .inr ⟨rfl, rfl, rfl, fun later => ?_⟩
        rw [Zone.step_code_absent, if_pos hquote]
      · obtain ⟨rfl, rfl⟩ := Prod.mk.inj (Option.some.inj h)
        refine .inr ⟨rfl, rfl, rfl, fun later => ?_⟩
        rw [Zone.step_code_absent, if_neg hquote]
  | literal quote =>
      -- a literal does not look at the markers
      have hstep : ∀ later, (Zone.literal quote).step .absent d later = some (shown, next) :=
        fun _ => h
      rw [Zone.step] at h
      split_ifs at h
      all_goals
        obtain ⟨rfl, rfl⟩ := Prod.mk.inj (Option.some.inj h)
        exact .inr ⟨rfl, rfl, rfl, hstep⟩
  | escape quote =>
      obtain ⟨rfl, rfl⟩ := Prod.mk.inj (Option.some.inj h)
      exact .inr ⟨rfl, rfl, rfl, fun _ => rfl⟩
  | comment =>
      rw [Zone.step] at h
      split_ifs at h
      · obtain ⟨rfl, rfl⟩ := Prod.mk.inj (Option.some.inj h)
        exact .inl ⟨rfl, rfl, rfl, Zone.uncommented_afterMarker _ _⟩
      · obtain ⟨rfl, rfl⟩ := Prod.mk.inj (Option.some.inj h)
        exact .inl ⟨rfl, rfl, rfl, rfl⟩
  | marker opening more =>
      obtain ⟨rfl, rfl⟩ := Prod.mk.inj (Option.some.inj h)
      exact .inl ⟨rfl, rfl, rfl, Zone.uncommented_afterMarker _ _⟩

/-- Without markers, a space in code is code. -/
lemma Zone.step_space_absent : Zone.step .absent .code ' ' rest = some (' ', .code) := by
  rw [Zone.step_code_absent]
  rfl

/-- A character in code that is no quote is code, and code goes on behind it. -/
lemma step_code_of_not_quote (h : Zone.isQuote d = false) :
    Zone.step .absent .code d rest = some (d, .code) := by
  rw [Zone.step_code_absent, h]
  rfl

/-- A quote is none of the other characters. -/
lemma ne_of_isQuote (h : Zone.isQuote c = true) (hd : Zone.isQuote d = false) : c ≠ d := by
  rintro rfl
  rw [h] at hd
  cases hd

/-- A blank is no quote. -/
lemma not_quote_of_blank (h : isBlank d = true) : Zone.isQuote d = false := by
  by_contra hquote
  rw [Bool.not_eq_false, Zone.isQuote, Bool.or_eq_true, beq_iff_eq, beq_iff_eq] at hquote
  rcases hquote with rfl | rfl
  · exact absurd h (by decide)
  · exact absurd h (by decide)

/-- Without markers, no character outside comments is part of one. -/
lemma Zone.stretch_ne_comment (hzone : zone.uncommented = zone)
    (h : zone.step .absent d [] = some (d, next)) : zone.stretch next ≠ .comment := by
  cases zone with
  | code =>
      rw [Zone.step_code_absent] at h
      split_ifs at h
      all_goals
        obtain ⟨_, rfl⟩ := Prod.mk.inj (Option.some.inj h)
        exact Stretch.noConfusion
  | literal quote => exact Stretch.noConfusion
  | escape quote => exact Stretch.noConfusion
  | comment => cases hzone
  | marker opening more => cases hzone

end Steps

/-! ### Text in which no comments are looked for -/

/-- The zone behind a character where no comments are looked for. -/
def Zone.next (zone : Zone) (c : Char) : Zone :=
  ((zone.step .absent c []).map Prod.snd).getD zone

/-- The zone behind a text where no comments are looked for. -/
def Zone.after (zone : Zone) (text : List Char) : Zone :=
  text.foldl Zone.next zone

section Plain

variable {zone : Zone} {c quote : Char} {text later rest : List Char}

@[simp] lemma Zone.after_nil : zone.after [] = zone := rfl

@[simp] lemma Zone.after_cons : zone.after (c :: rest) = (zone.next c).after rest := rfl

lemma Zone.after_append : zone.after (text ++ later) = (zone.after text).after later :=
  List.foldl_append

/-- Where no comments are looked for, what follows a character does not matter. -/
lemma Zone.exists_step_absent (zone : Zone) (c : Char) :
    ∃ shown, ∀ rest, zone.step .absent c rest = some (shown, zone.next c) := by
  have hstep : ∃ pair, ∀ rest, zone.step .absent c rest = some pair := by
    cases zone with
    | code =>
        simp only [Zone.step_code_absent]
        split_ifs <;> exact ⟨_, fun _ => rfl⟩
    | literal quote =>
        simp only [Zone.step]
        split_ifs <;> exact ⟨_, fun _ => rfl⟩
    | _ => exact ⟨_, fun _ => rfl⟩
  obtain ⟨⟨shown, next⟩, hstep⟩ := hstep
  have hnext : zone.next c = next := by rw [Zone.next, hstep]; rfl
  exact ⟨shown, fun rest => by rw [hstep, hnext]⟩

@[simp] lemma stretches_absent_nil : stretches .absent zone [] = [] := rfl

lemma stretches_absent_cons :
    stretches .absent zone (c :: rest) =
      zone.stretch (zone.next c) :: stretches .absent (zone.next c) rest := by
  obtain ⟨shown, hstep⟩ := zone.exists_step_absent c
  rw [stretches, hstep]

@[simp] lemma length_stretches_absent : (stretches .absent zone text).length = text.length := by
  induction text generalizing zone with
  | nil => rfl
  | cons c rest ih => rw [stretches_absent_cons, List.length_cons, ih, List.length_cons]

/-- The stretches of a text are those of its two parts. -/
lemma stretches_append :
    stretches .absent zone (text ++ later) =
      stretches .absent zone text ++ stretches .absent (zone.after text) later := by
  induction text generalizing zone with
  | nil => rfl
  | cons c rest ih =>
      rw [List.cons_append, stretches_absent_cons, stretches_absent_cons, ih, Zone.after_cons,
        List.cons_append]

lemma Zone.next_code_of_not_quote (h : Zone.isQuote c = false) : Zone.next .code c = .code := by
  rw [Zone.next, step_code_of_not_quote h]
  rfl

/-- In code, a text without quotes is code, and code goes on behind it. -/
lemma code_of_not_quote (h : ∀ c ∈ text, Zone.isQuote c = false) :
    stretches .absent .code text = List.replicate text.length .code ∧
      Zone.code.after text = .code := by
  induction text with
  | nil => exact ⟨rfl, rfl⟩
  | cons c rest ih =>
      have hnext := Zone.next_code_of_not_quote (h c List.mem_cons_self)
      obtain ⟨hstretches, hafter⟩ := ih fun d hd => h d (List.mem_cons_of_mem c hd)
      rw [stretches_absent_cons, hnext, hstretches, Zone.after_cons, hnext]
      exact ⟨rfl, hafter⟩

/-- A quote in code opens a literal. -/
lemma Zone.next_code_of_quote (h : Zone.isQuote quote = true) :
    Zone.next .code quote = .literal quote := by
  rw [Zone.next, Zone.step_code_absent, if_pos h]
  rfl

/-- The quote closes a literal. -/
lemma Zone.next_literal_close (h : quote ≠ '\\') :
    Zone.next (.literal quote) quote = .code := by
  rw [Zone.next, Zone.step, if_neg h, if_pos rfl]
  rfl

/-- A literal goes on behind any other character, but a backslash. -/
lemma Zone.next_literal_plain (hescape : c ≠ '\\') (hquote : c ≠ quote) :
    Zone.next (.literal quote) c = .literal quote := by
  rw [Zone.next, Zone.step, if_neg hescape, if_neg hquote]
  rfl

/-- The characters of a literal are one stretch, and code goes on behind it. The
induction is along the reading of the literal. -/
lemma stretches_literal (quote : Char) (text : List Char) :
    stretches .absent (.literal quote) text =
      List.replicate (Token.literalExtent quote text).1 .literal ++
        stretches .absent .code (text.drop (Token.literalExtent quote text).1) := by
  fun_induction Token.literalExtent quote text with
  | case1 => rfl
  | case2 => rfl
  | case3 guarded later more closed hextent ih =>
      rw [hextent] at ih
      have hescape : Zone.next (.literal quote) '\\' = .escape quote := rfl
      have hguarded : Zone.next (.escape quote) guarded = .literal quote := rfl
      rw [stretches_absent_cons, hescape, stretches_absent_cons, hguarded, ih]
      rfl
  | case4 rest hescape =>
      rw [stretches_absent_cons, Zone.next_literal_close hescape]
      rfl
  | case5 c rest hescape hclose more closed hextent ih =>
      rw [hextent] at ih
      rw [stretches_absent_cons, Zone.next_literal_plain hescape hclose, ih]
      rfl

end Plain

/-! ### Sifted lines -/

section Sifted

variable {markers : Markers} {zone : Zone} {c : Char} {text : List Char} {index : Nat}

/-- A character of a sifted line is a space in the place of one of a comment, or it
stands so in the line, as part of the same as where no comments are looked for. The
induction is on the line, for every zone in which it can start. -/
theorem shown_cases (h : (siftFrom markers zone text).shown[index]? = some c) :
    ((stretches markers zone text)[index]? = some .comment ∧ c = ' ' ∧
        (stretches .absent zone.uncommented (siftFrom markers zone text).shown)[index]? =
          some .code) ∨
      ∃ part ≠ Stretch.comment, (stretches markers zone text)[index]? = some part ∧
        text[index]? = some c ∧
          (stretches .absent zone.uncommented (siftFrom markers zone text).shown)[index]? =
            some part := by
  induction text generalizing zone index with
  | nil => simp [siftFrom] at h
  | cons d rest ih =>
      cases hstep : zone.step markers d rest with
      | none => simp [siftFrom, hstep] at h
      | some pair =>
          obtain ⟨shown, next⟩ := pair
          have hshown : (siftFrom markers zone (d :: rest)).shown =
              shown :: (siftFrom markers next rest).shown := by
            rw [siftFrom, hstep]
          have hstretches : stretches markers zone (d :: rest) =
              zone.stretch next :: stretches markers next rest := by
            rw [stretches, hstep]
          -- the step where no comments are looked for
          obtain ⟨plain, hplain, hcases⟩ : ∃ plain,
              stretches .absent zone.uncommented (shown :: (siftFrom markers next rest).shown) =
                plain :: stretches .absent next.uncommented (siftFrom markers next rest).shown ∧
              ((shown = ' ' ∧ zone.stretch next = .comment ∧ plain = .code) ∨
                (shown = d ∧ zone.stretch next ≠ .comment ∧ plain = zone.stretch next)) := by
            rcases Zone.step_cases hstep with
              ⟨rfl, hcomment, hzone, hnext⟩ | ⟨rfl, hzone, hnext, hkept⟩
            · refine ⟨.code, ?_, .inl ⟨rfl, hcomment, rfl⟩⟩
              rw [hzone, hnext, stretches, Zone.step_space_absent]
              rfl
            · refine ⟨zone.stretch next, ?_, .inr ⟨rfl, ?_, rfl⟩⟩
              · rw [hzone, hnext, stretches, hkept]
              · exact Zone.stretch_ne_comment hzone (hkept [])
          rw [hshown] at h ⊢
          rw [hstretches, hplain]
          cases index with
          | zero =>
              obtain rfl : shown = c := by simpa using h
              rcases hcases with ⟨rfl, hcomment, rfl⟩ | ⟨rfl, hne, rfl⟩
              · exact .inl ⟨by simp [hcomment], rfl, rfl⟩
              · exact .inr ⟨_, hne, rfl, rfl, rfl⟩
          | succ index =>
              simp only [List.getElem?_cons_succ] at h ⊢
              exact ih h

/-- What is not part of a comment is shown. -/
lemma lt_length_shown {part : Stretch} (h : (stretches markers zone text)[index]? = some part)
    (hpart : part ≠ .comment) : index < (siftFrom markers zone text).shown.length := by
  induction text generalizing zone index with
  | nil => simp [stretches] at h
  | cons d rest ih =>
      rw [stretches] at h
      rw [siftFrom]
      cases hstep : zone.step markers d rest with
      | none =>
          rw [hstep] at h
          have hmem := List.mem_of_getElem? h
          simp only [List.mem_cons, List.mem_map, exists_and_right] at hmem
          rcases hmem with rfl | ⟨_, rfl⟩
          all_goals exact absurd rfl hpart
      | some pair =>
          rw [hstep] at h
          cases index with
          | zero => exact Nat.succ_pos _
          | succ index => exact Nat.succ_lt_succ (ih h)

/-- Sifting puts spaces in the place of characters and cuts the line, and keeps
every other character. -/
theorem getElem?_of_shown (hc : c ≠ ' ')
    (h : (siftFrom markers zone text).shown[index]? = some c) : text[index]? = some c := by
  rcases shown_cases h with ⟨_, hspace, _⟩ | ⟨_, _, _, htext, _⟩
  · exact absurd hspace hc
  · exact htext

/-- What is code in a line is what is code in the sifted line, read without comment
markers. -/
theorem codeAt_sift_iff (hc : c ≠ ' ') :
    CodeAt markers zone text index c ↔
      CodeAt .absent zone.uncommented (siftFrom markers zone text).shown index c := by
  constructor
  · rintro ⟨htext, hcode⟩
    have hlt := lt_length_shown hcode Stretch.noConfusion
    rcases shown_cases (List.getElem?_eq_getElem hlt) with
      ⟨hcomment, _⟩ | ⟨part, _, hpart, hkept, hplain⟩
    · rw [hcode] at hcomment
      cases hcomment
    · obtain rfl := Option.some.inj (hcode.symm.trans hpart)
      refine ⟨?_, hplain⟩
      rw [List.getElem?_eq_getElem hlt, ← hkept, htext]
  · rintro ⟨hshown, hplain⟩
    rcases shown_cases hshown with ⟨_, hspace, _⟩ | ⟨part, _, hpart, htext, hsame⟩
    · exact absurd hspace hc
    · obtain rfl := Option.some.inj (hplain.symm.trans hsame)
      exact ⟨htext, hpart⟩

example :
    (siftFrom ⟨"//".toList, "/*".toList, "*/".toList⟩ .code "f(/*(*/) // )".toList).shown =
      "f(     ) ".toList := by decide

end Sifted

/-! ### Code in text in which no comments are looked for -/

section CodeAt

variable {zone : Zone} {c : Char} {text later : List Char} {index : Nat}

@[simp] lemma not_codeAt_nil {markers : Markers} : ¬ CodeAt markers zone [] index c := by
  simp [CodeAt]

/-- What follows a text does not matter for it. -/
lemma codeAt_append_left (hlt : index < text.length) :
    CodeAt .absent zone (text ++ later) index c ↔ CodeAt .absent zone text index c := by
  rw [CodeAt, CodeAt, stretches_append, List.getElem?_append_left hlt,
    List.getElem?_append_left (by simpa using hlt)]

/-- Behind a text, its last zone is gone on with. -/
lemma codeAt_append_right (hle : text.length ≤ index) :
    CodeAt .absent zone (text ++ later) index c ↔
      CodeAt .absent (zone.after text) later (index - text.length) c := by
  rw [CodeAt, CodeAt, stretches_append, List.getElem?_append_right hle,
    List.getElem?_append_right (by simpa using hle), length_stretches_absent]

/-- In code, a text without quotes is code, and code goes on behind it. -/
lemma codeAt_append_of_not_quote (h : ∀ d ∈ text, Zone.isQuote d = false) :
    CodeAt .absent .code (text ++ later) index c ↔
      text[index]? = some c ∨
        (text.length ≤ index ∧ CodeAt .absent .code later (index - text.length) c) := by
  obtain ⟨hstretches, hafter⟩ := code_of_not_quote h
  rcases Nat.lt_or_ge index text.length with hlt | hle
  · rw [codeAt_append_left hlt, CodeAt, hstretches]
    simp [hlt, Nat.not_le_of_lt hlt]
  · rw [codeAt_append_right hle, hafter]
    simp [hle]

end CodeAt

/-! ### The code of a text and its tokens -/

/-- What the characters of a token of this kind are part of. -/
def TokenKind.stretch : TokenKind → Stretch
  | literal _ => .literal
  | _ => .code

namespace Token

variable {afterNumber : Bool} {lexeme later text : List Char} {kind : TokenKind}
  {column index : Nat} {c : Char} {tokens : List Token} {bracket : Delimiter}

/-- A token is one stretch, and code goes on behind it. -/
lemma Spells.stretches_eq (h : Spells afterNumber later kind lexeme) :
    stretches .absent .code (lexeme ++ later) =
      List.replicate lexeme.length kind.stretch ++ stretches .absent .code later := by
  by_cases hkind : ∀ closed, kind ≠ .literal closed
  · obtain ⟨hstretches, hafter⟩ :=
      code_of_not_quote fun c hc => (h.not_blank_not_quote hkind c hc).2
    have hcode : kind.stretch = .code := by
      cases kind with
      | literal closed => exact absurd rfl (hkind closed)
      | _ => rfl
    rw [stretches_append, hstretches, hafter, hcode]
  · generalize hliteral : kind = given at h
    cases h with
    | @literal quote body closed quotes extent =>
        rw [List.cons_append, stretches_absent_cons, Zone.next_code_of_quote quotes,
          stretches_literal, extent, List.drop_left]
        rfl
    | word after valid =>
        refine absurd (fun closed => ?_) hkind
        rw [hliteral]
        exact wordKind_ne _ TokenKind.noConfusion fun _ => TokenKind.noConfusion
    | _ => exact absurd (fun closed heq => by cases hliteral.symm.trans heq) hkind

/-- The characters of a token are all part of the same. -/
lemma Spells.getElem?_stretches (h : Spells afterNumber later kind lexeme)
    (hlt : index < lexeme.length) :
    (stretches .absent .code (lexeme ++ later))[index]? = some kind.stretch := by
  rw [h.stretches_eq, List.getElem?_append_left (by simpa using hlt), List.getElem?_replicate,
    if_pos hlt]

/-- The characters of a token are code unless it is a literal, and behind it code
goes on. -/
lemma Spells.codeAt_iff (h : Spells afterNumber later kind lexeme) :
    CodeAt .absent .code (lexeme ++ later) index c ↔
      ((∀ closed, kind ≠ .literal closed) ∧ lexeme[index]? = some c) ∨
        (lexeme.length ≤ index ∧ CodeAt .absent .code later (index - lexeme.length) c) := by
  have hkind : kind.stretch = .code ↔ ∀ closed, kind ≠ .literal closed := by
    cases kind <;> simp [TokenKind.stretch]
  rw [CodeAt, CodeAt]
  rcases Nat.lt_or_ge index lexeme.length with hlt | hle
  · rw [h.getElem?_stretches hlt, List.getElem?_append_left hlt, Option.some.injEq, hkind]
    simp [Nat.not_le_of_lt hlt, and_comm]
  · rw [h.stretches_eq, List.getElem?_append_right hle,
      List.getElem?_append_right (by simpa using hle), List.length_replicate]
    simp [hle]

/-- The bracket tokens of a text are the brackets in its code. The induction is
along the text: a blank is no bracket, and a bracket is a token of its own. -/
theorem Reads.codeAt_bracket_iff (h : Reads column afterNumber text tokens)
    (hbracket : bracket.IsBracket) :
    CodeAt .absent .code text index bracket.char ↔
      ∃ token ∈ tokens, token.kind = .delimiter bracket ∧ token.column = column + index := by
  have hchar : isBlank bracket.char = false := by
    cases bracket <;> decide
  induction h generalizing index with
  | done => simp
  | @blank column _ d text tokens blank rest ih =>
      have hcons : CodeAt .absent .code ([d] ++ text) index bracket.char ↔ _ :=
        codeAt_append_of_not_quote (by simpa using not_quote_of_blank blank)
      have hblank : [d][index]? ≠ some bracket.char := by
        intro hget
        obtain rfl := List.mem_singleton.mp (List.mem_of_getElem? hget)
        rw [blank] at hchar
        cases hchar
      refine hcons.trans ((or_iff_right hblank).trans ?_)
      refine (and_congr_right fun _ => ih).trans ?_
      rw [List.length_singleton]
      constructor
      · rintro ⟨hle, token, htoken, hkind, hcolumn⟩
        exact ⟨token, htoken, hkind, by omega⟩
      · rintro ⟨token, htoken, hkind, hcolumn⟩
        have hle := rest.le_column htoken
        exact ⟨by omega, token, htoken, hkind, by omega⟩
  | @token column _ kind lexeme later tokens spells rest ih =>
      refine (spells.codeAt_iff.trans (or_congr_right (and_congr_right fun _ => ih))).trans ?_
      constructor
      · rintro (⟨hkind, hget⟩ | ⟨hle, token, htoken, hbracket, hcolumn⟩)
        · obtain ⟨rfl, rfl⟩ := spells.eq_of_bracket hkind hbracket (List.mem_of_getElem? hget)
          obtain rfl : index = 0 := by
            have hlt := (List.getElem?_eq_some_iff.mp hget).1
            rw [List.length_singleton] at hlt
            omega
          exact ⟨_, List.mem_cons_self, rfl, rfl⟩
        · exact ⟨token, List.mem_cons_of_mem _ htoken, hbracket, by omega⟩
      · rintro ⟨token, htoken, hkind, hcolumn⟩
        rcases List.mem_cons.mp htoken with rfl | htoken
        · obtain rfl : kind = .delimiter bracket := hkind
          obtain rfl := spells.eq_char
          have hindex : column = column + index := hcolumn
          obtain rfl : index = 0 := by omega
          exact .inl ⟨fun closed => TokenKind.noConfusion, rfl⟩
        · have hle := rest.le_column htoken
          exact .inr ⟨by omega, token, htoken, hkind, by omega⟩

end Token

end ScriptLint
