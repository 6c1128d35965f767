import Mathlib
import ScriptLint.Token.Role

/-!
What the tokens of a line are used for, said of their indices.

* `KindAt`, `KindBefore`: the kind of the token at an index, and directly before
  it.
* `VarTarget`, `LoopVariable`, `HeaderParameter`: the identifiers that declare a
  name; `VariableUse`: those that use one.
* `depthBefore`: the parentheses that are open before an index, counted from the
  third token on. A parameter stands where this depth is one and has not been
  zero before.
* `FunctionHeader.visitsFrom`, `FunctionHeader.mem_visitsFrom_iff`: the tokens that the
  reading of parameters comes to, and the depth that it counts before each.
* `mem_paramsFrom_iff`, `mem_parameterIndices_iff`: the parameters that are read
  off a header are those of `HeaderParameter`.
* `mem_ofTokens_iff`: the sites of a line are its indices; with it
  `role_eq_varTarget_iff`, `role_eq_use_iff` and `mem_headNames_iff` turn the roles
  into the notions above.
-/

namespace ScriptLint

/-! ### Kinds of tokens -/

@[simp] lemma Token.isIdentifier_iff {token : Token} :
    token.isIdentifier = true ↔ token.kind = .identifier := by
  simp [Token.isIdentifier]

@[simp] lemma Token.isKeyword_iff {token : Token} {keyword : Keyword} :
    token.isKeyword keyword = true ↔ token.kind = .keyword keyword := by
  simp [Token.isKeyword]

@[simp] lemma Token.isDelimiter_iff {token : Token} {delimiter : Delimiter} :
    token.isDelimiter delimiter = true ↔ token.kind = .delimiter delimiter := by
  simp [Token.isDelimiter]

/-! ### Occurrences -/

/-- The token at the index has this kind. -/
def KindAt (tokens : List Token) (index : Nat) (kind : TokenKind) : Prop :=
  ∃ token, tokens[index]? = some token ∧ token.kind = kind

/-- The token directly before the index has this kind. -/
def KindBefore (tokens : List Token) (index : Nat) (kind : TokenKind) : Prop :=
  ∃ before, index = before + 1 ∧ KindAt tokens before kind

/-- The token at the index is spelled like this. -/
def SpelledAt (tokens : List Token) (index : Nat) (name : List Char) : Prop :=
  ∃ token, tokens[index]? = some token ∧ token.lexeme = name

/-- An identifier directly after `var`. -/
def VarTarget (tokens : List Token) (index : Nat) : Prop :=
  KindAt tokens index .identifier ∧ KindBefore tokens index (.keyword .var)

/-- The identifier right after a leading `for`. -/
def LoopVariable (tokens : List Token) (index : Nat) : Prop :=
  index = 1 ∧ KindAt tokens 0 (.keyword .for_) ∧ KindAt tokens 1 .identifier

/-- How a token changes the number of open parentheses. -/
def parenWeight (token : Token) : Int :=
  if token.kind = .delimiter .leftParen then 1
  else if token.kind = .delimiter .rightParen then -1
  else 0

/-- The opening parentheses less the closing ones. -/
def parenSum (tokens : List Token) : Int :=
  (tokens.map parenWeight).sum

/-- The parentheses that are open before the index, counted from the third token
on. -/
def depthBefore (tokens : List Token) (index : Nat) : Int :=
  parenSum ((tokens.take index).drop 2)

/-- A parameter of the header `function NAME (` at the start of the line: an
identifier directly inside the parentheses that the third token opens, before they
are closed. -/
structure HeaderParameter (tokens : List Token) (index : Nat) : Prop where
  leads : KindAt tokens 0 (.keyword .function)
  named : KindAt tokens 1 .identifier
  opened : KindAt tokens 2 (.delimiter .leftParen)
  inside : 3 ≤ index
  identifier : KindAt tokens index .identifier
  depth_eq_one : depthBefore tokens index = 1
  still_open : ∀ earlier, 3 ≤ earlier → earlier ≤ index → depthBefore tokens earlier ≠ 0

/-- An identifier that is declared by the head of the line. -/
def HeadTarget (tokens : List Token) (index : Nat) : Prop :=
  LoopVariable tokens index ∨ HeaderParameter tokens index

/-- The use of a variable: an identifier that declares no name, names no function,
is not called and is not a member. -/
structure VariableUse (tokens : List Token) (index : Nat) : Prop where
  identifier : KindAt tokens index .identifier
  not_target : ¬ VarTarget tokens index
  not_loop : ¬ LoopVariable tokens index
  not_parameter : ¬ HeaderParameter tokens index
  not_function : ¬ KindBefore tokens index (.keyword .function)
  not_called : ¬ KindAt tokens (index + 1) (.delimiter .leftParen)
  not_member : ¬ KindBefore tokens index (.delimiter .dot)

section Occurrences

variable {tokens rest : List Token} {token : Token} {index : Nat} {kind : TokenKind}

@[simp] lemma kindAt_cons_zero : KindAt (token :: rest) 0 kind ↔ token.kind = kind := by
  simp [KindAt]

@[simp] lemma kindAt_cons_succ :
    KindAt (token :: rest) (index + 1) kind ↔ KindAt rest index kind := by
  simp [KindAt]

@[simp] lemma not_kindAt_nil : ¬ KindAt [] index kind := by
  simp [KindAt]

/-- The kind at an index is that of the token there. -/
lemma kindAt_iff (h : tokens[index]? = some token) :
    KindAt tokens index kind ↔ token.kind = kind := by
  simp [KindAt, h]

/-! ### Parameters of a header -/

@[simp] lemma parenSum_nil : parenSum [] = 0 := rfl

@[simp] lemma parenSum_cons :
    parenSum (token :: rest) = parenWeight token + parenSum rest := by
  simp [parenSum]

lemma parenWeight_leftParen (h : token.kind = .delimiter .leftParen) : parenWeight token = 1 :=
  if_pos h

lemma parenWeight_rightParen (h : token.kind = .delimiter .rightParen) :
    parenWeight token = -1 := by
  simp [parenWeight, h]

lemma parenWeight_of_ne (hleft : token.kind ≠ .delimiter .leftParen)
    (hright : token.kind ≠ .delimiter .rightParen) : parenWeight token = 0 := by
  rw [parenWeight, if_neg hleft, if_neg hright]

namespace FunctionHeader

/-- A token that the reading of parameters comes to. -/
structure Visit where
  index : ℕ
  /-- The open parentheses before the token, as they are counted. -/
  depth : ℕ
  token : Token
deriving DecidableEq, Repr

/-- The token is an identifier directly inside the parentheses. -/
def Visit.isParameter (visit : Visit) : Bool :=
  visit.depth = 1 && visit.token.isIdentifier

/-- The visits from a token on that has the given index and the given number of open
parentheses before it. A closing parenthesis takes one off, as far as there is one, and ends the
reading when none is left. -/
def visitsFrom (index depth : ℕ) : List Token → List Visit
  | [] => []
  | token :: rest =>
    ⟨index, depth, token⟩ ::
      if token.isDelimiter .leftParen then
        visitsFrom (index + 1) (depth + 1) rest
      else if token.isDelimiter .rightParen then
        if depth - 1 = 0 then [] else visitsFrom (index + 1) (depth - 1) rest
      else
        visitsFrom (index + 1) depth rest

variable {start offset : ℕ} {depth : ℤ} {visit : Visit}

/-- The parameters are the identifiers that are visited at depth one. -/
lemma paramsFrom_eq_visitsFrom (start depth : ℕ) (tokens : List Token) :
    paramsFrom start depth tokens =
      ((visitsFrom start depth tokens).filter Visit.isParameter).map Visit.index := by
  induction tokens generalizing start depth with
  | nil => rfl
  | cons token rest ih =>
      -- a parenthesis is no parameter
      have hparen : ∀ delimiter, token.isDelimiter delimiter = true →
          (⟨start, depth, token⟩ : Visit).isParameter = false := by
        intro delimiter h
        simp [Visit.isParameter, Token.isIdentifier, Token.isDelimiter_iff.mp h]
      rw [paramsFrom, visitsFrom, List.filter_cons]
      by_cases hleft : token.isDelimiter .leftParen = true
      · rw [if_pos hleft, if_pos hleft, hparen _ hleft, ih]
        rfl
      · rw [if_neg hleft, if_neg hleft]
        by_cases hright : token.isDelimiter .rightParen = true
        · rw [if_pos hright, if_pos hright, hparen _ hright]
          by_cases hlast : depth ≤ 1
          · rw [if_pos hlast, if_pos (Nat.sub_eq_zero_of_le hlast)]
            rfl
          · rw [if_neg hlast, if_neg (Nat.sub_ne_zero_of_lt (Nat.lt_of_not_le hlast)), ih]
            rfl
        · have htest : (⟨start, depth, token⟩ : Visit).isParameter =
              (decide (depth = 1) && token.isIdentifier) := rfl
          rw [if_neg hright, if_neg hright, ih, htest]
          split_ifs <;> rfl

/-- A text before which this many parentheses are open has the visit at this offset. -/
def VisitAt (depth : ℤ) (tokens : List Token) (offset : ℕ) (visit : Visit) : Prop :=
  tokens[offset]? = some visit.token ∧ visit.depth = depth + parenSum (tokens.take offset) ∧
    ∀ earlier ≤ offset, depth + parenSum (tokens.take earlier) ≠ 0

lemma VisitAt.depth_ne_zero (h : VisitAt depth tokens offset visit) : depth ≠ 0 := by
  simpa using h.2.2 0 (Nat.zero_le _)

/-- A visit at the start of a text. -/
lemma visitAt_zero : VisitAt depth (token :: rest) 0 visit ↔
    token = visit.token ∧ visit.depth = depth ∧ depth ≠ 0 := by
  simp [VisitAt]

/-- A visit behind the first token of a text. -/
lemma visitAt_succ : VisitAt depth (token :: rest) (offset + 1) visit ↔
    depth ≠ 0 ∧ VisitAt (depth + parenWeight token) rest offset visit := by
  simp only [VisitAt, List.getElem?_cons_succ, List.take_succ_cons, parenSum_cons, ← add_assoc]
  constructor
  · rintro ⟨htoken, hdepth, hopen⟩
    refine ⟨by simpa using hopen 0 (Nat.zero_le _), htoken, hdepth, fun earlier hle => ?_⟩
    simpa [← add_assoc] using hopen (earlier + 1) (Nat.succ_le_succ hle)
  · rintro ⟨hne, htoken, hdepth, hopen⟩
    refine ⟨htoken, hdepth, fun earlier hle => ?_⟩
    cases earlier with
    | zero => simpa using hne
    | succ earlier => simpa [← add_assoc] using hopen earlier (Nat.le_of_succ_le_succ hle)

/-- The visits of a longer text are its first token and those behind it. -/
lemma exists_visitAt_cons : (∃ offset, visit.index = start + offset ∧
      VisitAt depth (token :: rest) offset visit) ↔
    (visit.index = start ∧ token = visit.token ∧ visit.depth = depth ∧ depth ≠ 0) ∨
      (depth ≠ 0 ∧ ∃ offset, visit.index = start + 1 + offset ∧
        VisitAt (depth + parenWeight token) rest offset visit) := by
  rw [← Nat.or_exists_add_one, visitAt_zero, Nat.add_zero]
  refine or_congr_right ?_
  constructor
  · rintro ⟨offset, hindex, h⟩
    rw [visitAt_succ] at h
    exact ⟨h.1, offset, by omega, h.2⟩
  · rintro ⟨hdepth, offset, hindex, h⟩
    exact ⟨offset, by omega, visitAt_succ.mpr ⟨hdepth, h⟩⟩

/-- What is visited behind an open parenthesis. The induction is on the tokens, for every depth
that is not zero: this is what the reading keeps. -/
lemma mem_visitsFrom_iff {start depth : ℕ} (hdepth : 1 ≤ depth) :
    visit ∈ visitsFrom start depth tokens ↔
      ∃ offset, visit.index = start + offset ∧ VisitAt depth tokens offset visit := by
  induction tokens generalizing start depth with
  | nil => simp [visitsFrom, VisitAt]
  | cons token rest ih =>
      have hne : (depth : ℤ) ≠ 0 := Int.natCast_ne_zero.mpr (by omega)
      have hfirst : visit = ⟨start, depth, token⟩ ↔ visit.index = start ∧ token = visit.token ∧
          (visit.depth : ℤ) = depth ∧ (depth : ℤ) ≠ 0 := by
        rw [and_iff_left hne, Int.natCast_inj, eq_comm (a := token)]
        cases visit
        simp [and_comm]
      rw [exists_visitAt_cons, visitsFrom, List.mem_cons, hfirst, and_iff_right hne]
      refine or_congr_right ?_
      by_cases hleft : token.kind = .delimiter .leftParen
      · rw [if_pos (by simpa using hleft), ih (Nat.le_add_left 1 depth),
          parenWeight_leftParen hleft, Nat.cast_add, Nat.cast_one]
      · rw [if_neg (by simpa using hleft)]
        by_cases hright : token.kind = .delimiter .rightParen
        · rw [if_pos (by simpa using hright), parenWeight_rightParen hright]
          by_cases hlast : depth - 1 = 0
          · have hzero : (depth : ℤ) + -1 = 0 := by omega
            rw [if_pos hlast, hzero]
            refine iff_of_false List.not_mem_nil ?_
            rintro ⟨_, _, h⟩
            exact h.depth_ne_zero rfl
          · have hcast : ((depth - 1 : ℕ) : ℤ) = (depth : ℤ) + -1 := by omega
            rw [if_neg hlast, ih (by omega), hcast]
        · rw [if_neg (by simpa using hright), ih hdepth, parenWeight_of_ne hleft hright, add_zero]

end FunctionHeader

/-- A parameter stands at this offset in a text before which this many parentheses
are open. -/
def ParameterAt (depth : Int) (tokens : List Token) (offset : Nat) : Prop :=
  KindAt tokens offset .identifier ∧ depth + parenSum (tokens.take offset) = 1 ∧
    ∀ earlier ≤ offset, depth + parenSum (tokens.take earlier) ≠ 0

/-- Where the parameters stand among the tokens behind an open parenthesis. -/
lemma mem_paramsFrom_iff {start depth : Nat} (hdepth : 1 ≤ depth) :
    index ∈ FunctionHeader.paramsFrom start depth tokens ↔
      ∃ offset, index = start + offset ∧ ParameterAt depth tokens offset := by
  rw [FunctionHeader.paramsFrom_eq_visitsFrom, List.mem_map]
  constructor
  · rintro ⟨visit, hmem, rfl⟩
    obtain ⟨hvisit, hparam⟩ := List.mem_filter.mp hmem
    obtain ⟨offset, hindex, htoken, hcount, hopen⟩ :=
      (FunctionHeader.mem_visitsFrom_iff hdepth).mp hvisit
    rw [FunctionHeader.Visit.isParameter, Bool.and_eq_true, decide_eq_true_iff,
      Token.isIdentifier_iff] at hparam
    rw [hparam.1] at hcount
    exact ⟨offset, hindex, ⟨visit.token, htoken, hparam.2⟩, hcount.symm, hopen⟩
  · rintro ⟨offset, hindex, ⟨token, htoken, hident⟩, hone, hopen⟩
    have hvisit : ⟨index, 1, token⟩ ∈ FunctionHeader.visitsFrom start depth tokens :=
      (FunctionHeader.mem_visitsFrom_iff hdepth).mpr ⟨offset, hindex, htoken, hone.symm, hopen⟩
    refine ⟨_, List.mem_filter.mpr ⟨hvisit, ?_⟩, rfl⟩
    simp [FunctionHeader.Visit.isParameter, hident]

/-- The depth before a token behind the opening parenthesis of a header. -/
lemma depthBefore_eq {first second third : Token} (offset : Nat)
    (hthird : third.kind = .delimiter .leftParen) :
    depthBefore (first :: second :: third :: rest) (3 + offset) =
      1 + parenSum (rest.take offset) := by
  have htake : ((first :: second :: third :: rest).take (3 + offset)).drop 2 =
      third :: rest.take offset := by
    rw [Nat.add_comm]
    rfl
  rw [depthBefore, htake, parenSum_cons, parenWeight_leftParen hthird]

/-- The parameters of a header of at least three tokens, by their distance from the
opening parenthesis. -/
lemma headerParameter_iff {first second third : Token} :
    HeaderParameter (first :: second :: third :: rest) index ↔
      first.kind = .keyword .function ∧ second.kind = .identifier ∧
        third.kind = .delimiter .leftParen ∧
          ∃ offset, index = 3 + offset ∧ ParameterAt 1 rest offset := by
  constructor
  · rintro ⟨hleads, hnamed, hopened, hinside, hident, hone, hopen⟩
    simp only [kindAt_cons_succ, kindAt_cons_zero] at hleads hnamed hopened
    obtain ⟨offset, rfl⟩ := Nat.exists_eq_add_of_le hinside
    rw [depthBefore_eq offset hopened] at hone
    refine ⟨hleads, hnamed, hopened, offset, rfl, ?_, hone, fun earlier hle => ?_⟩
    · simpa [Nat.add_comm 3 offset] using hident
    · rw [← depthBefore_eq earlier hopened]
      exact hopen (3 + earlier) (Nat.le_add_right 3 earlier) (Nat.add_le_add_left hle 3)
  · rintro ⟨hleads, hnamed, hopened, offset, rfl, hident, hone, hopen⟩
    refine ⟨by simpa using hleads, by simpa using hnamed, by simpa using hopened,
      Nat.le_add_right 3 offset, ?_, ?_, fun earlier hinside hle => ?_⟩
    · simpa [Nat.add_comm 3 offset] using hident
    · rw [depthBefore_eq offset hopened, hone]
    · obtain ⟨distance, rfl⟩ := Nat.exists_eq_add_of_le hinside
      rw [depthBefore_eq distance hopened]
      exact hopen distance (Nat.le_of_add_le_add_left hle)

/-- The parameters that are read off a line are those of its header. -/
theorem mem_parameterIndices_iff :
    index ∈ parameterIndices tokens ↔ HeaderParameter tokens index := by
  match tokens with
  | [] =>
      exact iff_of_false (by simp [parameterIndices, FunctionHeader.ofTokens?])
        fun h => not_kindAt_nil h.leads
  | [first] =>
      exact iff_of_false (by simp [parameterIndices, FunctionHeader.ofTokens?])
        fun h => not_kindAt_nil (kindAt_cons_succ.mp h.named)
  | [first, second] =>
      refine iff_of_false ?_ fun h => not_kindAt_nil (kindAt_cons_succ.mp
        (kindAt_cons_succ.mp h.opened))
      by_cases hheader : first.isKeyword .function && second.isIdentifier
      · simp [parameterIndices, FunctionHeader.ofTokens?, hheader,
          FunctionHeader.paramsAfterName]
      · simp [parameterIndices, FunctionHeader.ofTokens?, hheader]
  | first :: second :: third :: rest =>
      rw [headerParameter_iff]
      by_cases hheader : first.kind = .keyword .function ∧ second.kind = .identifier
      · have htest : (first.isKeyword .function && second.isIdentifier) = true := by
          simpa using hheader
        by_cases hopened : third.kind = .delimiter .leftParen
        · have hparams : index ∈ FunctionHeader.paramsFrom 3 1 rest ↔
              ∃ offset, index = 3 + offset ∧ ParameterAt ((1 : Nat) : Int) rest offset :=
            mem_paramsFrom_iff (le_refl 1)
          simpa [parameterIndices, FunctionHeader.ofTokens?, htest,
            FunctionHeader.paramsAfterName, hopened, hheader] using hparams
        · have hclosed : third.isDelimiter .leftParen = false := by
            rw [Bool.eq_false_iff]
            simpa using hopened
          simp [parameterIndices, FunctionHeader.ofTokens?, htest,
            FunctionHeader.paramsAfterName, hopened, hclosed]
      · have htest : (first.isKeyword .function && second.isIdentifier) = false := by
          rw [Bool.eq_false_iff]
          simpa using hheader
        simp only [parameterIndices, FunctionHeader.ofTokens?, htest]
        refine iff_of_false (by simp) ?_
        rintro ⟨hleads, hnamed, _⟩
        exact hheader ⟨hleads, hnamed⟩

/-! ### Sites and roles -/

/-- The token before an index, given the one before the first. -/
def tokenBefore (before? : Option Token) (tokens : List Token) : Nat → Option Token
  | 0 => before?
  | index + 1 => tokens[index]?

/-- The token before an index, seen from one token earlier. -/
lemma tokenBefore_cons (before? : Option Token) :
    tokenBefore before? (token :: rest) (index + 1) = tokenBefore (some token) rest index := by
  cases index <;> rfl

/-- The sites of the tokens from an index on are these tokens with their
neighbours. -/
lemma mem_ofTokensFrom_iff {site : Site} {start : Nat} {before? : Option Token} :
    site ∈ Site.ofTokensFrom start before? tokens ↔
      ∃ offset, site.index = start + offset ∧ tokens[offset]? = some site.token ∧
        site.after? = tokens[offset + 1]? ∧
          site.before? = tokenBefore before? tokens offset := by
  induction tokens generalizing start before? with
  | nil => simp [Site.ofTokensFrom]
  | cons token rest ih =>
      rw [Site.ofTokensFrom, List.mem_cons, ih]
      constructor
      · rintro (rfl | ⟨offset, hindex, htoken, hafter, hbefore⟩)
        · refine ⟨0, rfl, rfl, ?_, rfl⟩
          rw [List.head?_eq_getElem?, List.getElem?_cons_succ]
        · refine ⟨offset + 1, by omega, htoken, hafter, ?_⟩
          rw [hbefore, tokenBefore_cons]
      · rintro ⟨offset, hindex, htoken, hafter, hbefore⟩
        cases offset with
        | zero =>
            left
            obtain ⟨siteIndex, siteBefore, siteToken, siteAfter⟩ := site
            simp only [List.getElem?_cons_zero, Option.some.injEq] at htoken
            simp only [List.getElem?_cons_succ] at hafter
            simp only [Nat.add_zero] at hindex
            have hbefore : siteBefore = before? := hbefore
            rw [hindex, hbefore, ← htoken, hafter, List.head?_eq_getElem?]
        | succ offset =>
            rw [tokenBefore_cons] at hbefore
            exact .inr ⟨offset, by omega, htoken, hafter, hbefore⟩

/-- The sites of a line are its tokens with their neighbours. -/
lemma mem_ofTokens_iff {site : Site} :
    site ∈ Site.ofTokens tokens ↔
      tokens[site.index]? = some site.token ∧ site.after? = tokens[site.index + 1]? ∧
        site.before? = tokenBefore none tokens site.index := by
  rw [Site.ofTokens, mem_ofTokensFrom_iff]
  constructor
  · rintro ⟨offset, hindex, htoken, hafter, hbefore⟩
    rw [Nat.zero_add] at hindex
    rw [hindex]
    exact ⟨htoken, hafter, hbefore⟩
  · rintro ⟨htoken, hafter, hbefore⟩
    exact ⟨site.index, (Nat.zero_add _).symm, htoken, hafter, hbefore⟩

/-- Each token of a line has its site. -/
lemma exists_site (h : tokens[index]? = some token) :
    ∃ site ∈ Site.ofTokens tokens, site.index = index ∧ site.token = token :=
  ⟨⟨index, tokenBefore none tokens index, token, tokens[index + 1]?⟩,
    mem_ofTokens_iff.mpr ⟨h, rfl, rfl⟩, rfl, rfl⟩

/-- The sites of a line come in the order of their indices. -/
lemma pairwise_ofTokens (tokens : List Token) :
    (Site.ofTokens tokens).Pairwise fun a b => a.index < b.index := by
  have hfrom : ∀ start before?, (Site.ofTokensFrom start before? tokens).Pairwise
      fun a b => a.index < b.index := by
    induction tokens with
    | nil => exact fun _ _ => .nil
    | cons token rest ih =>
        intro start before?
        refine .cons (fun site hsite => ?_) (ih _ _)
        obtain ⟨offset, hindex, _⟩ := mem_ofTokensFrom_iff.mp hsite
        show start < site.index
        omega
  exact hfrom 0 none

lemma isLoopVariable_iff {site : Site} :
    site.isLoopVariable tokens = true ↔ LoopVariable tokens site.index := by
  have hcounting : startsCounting tokens = true ↔
      KindAt tokens 0 (.keyword .for_) ∧ KindAt tokens 1 .identifier := by
    match tokens with
    | [] => simp [startsCounting]
    | [_] => simp [startsCounting]
    | _ :: _ :: _ => simp [startsCounting]
  simp only [Site.isLoopVariable, LoopVariable, Bool.and_eq_true, beq_iff_eq, hcounting]
  tauto

lemma isParameter_iff {site : Site} :
    site.isParameter tokens = true ↔ HeaderParameter tokens site.index := by
  rw [Site.isParameter, List.contains_iff_mem, mem_parameterIndices_iff]

section Site

variable {site : Site} (hsite : site ∈ Site.ofTokens tokens)

include hsite

lemma kindAt_site_iff : KindAt tokens site.index kind ↔ site.token.kind = kind :=
  kindAt_iff (mem_ofTokens_iff.mp hsite).1

/-- What stands before a site is one of several kinds, by the index. -/
lemma before_any_mem_iff {kinds : List TokenKind} {test : Token → Bool}
    (htest : ∀ token, test token = true ↔ token.kind ∈ kinds) :
    site.before?.any test = true ↔ ∃ kind ∈ kinds, KindBefore tokens site.index kind := by
  rw [(mem_ofTokens_iff.mp hsite).2.2]
  cases hindex : site.index with
  | zero => simp [tokenBefore, KindBefore]
  | succ before =>
      cases htoken : tokens[before]? with
      | none => simp [tokenBefore, KindBefore, KindAt, htoken]
      | some token => simp [tokenBefore, KindBefore, KindAt, htoken, htest]

/-- What stands before a site, by the index. -/
lemma before_any_iff {test : Token → Bool}
    (htest : ∀ token, test token = true ↔ token.kind = kind) :
    site.before?.any test = true ↔ KindBefore tokens site.index kind := by
  have hmem : ∀ token, test token = true ↔ token.kind ∈ [kind] := by
    intro token
    rw [htest, List.mem_singleton]
  rw [before_any_mem_iff hsite hmem]
  simp only [List.mem_singleton, exists_eq_left]

/-- What stands after a site, by the index. -/
lemma after_any_iff {test : Token → Bool}
    (htest : ∀ token, test token = true ↔ token.kind = kind) :
    site.after?.any test = true ↔ KindAt tokens (site.index + 1) kind := by
  rw [(mem_ofTokens_iff.mp hsite).2.1]
  cases htoken : tokens[site.index + 1]? with
  | none => simp [KindAt, htoken]
  | some token => simp [KindAt, htoken, htest]

lemma isFunctionName_iff :
    site.isFunctionName = true ↔ KindBefore tokens site.index (.keyword .function) :=
  before_any_iff hsite fun _ => Token.isKeyword_iff

lemma isMember_iff :
    site.isMember = true ↔ KindBefore tokens site.index (.delimiter .dot) :=
  before_any_iff hsite fun _ => Token.isDelimiter_iff

lemma isCall_iff :
    site.isCall = true ↔ KindAt tokens site.index .identifier ∧
      KindAt tokens (site.index + 1) (.delimiter .leftParen) ∧
        ¬ KindBefore tokens site.index (.keyword .function) := by
  rw [kindAt_site_iff hsite, ← after_any_iff hsite fun _ => Token.isDelimiter_iff,
    ← isFunctionName_iff hsite]
  simp [Site.isCall, and_assoc]

/-- A site declares a variable exactly when its index is a target of `var`. -/
lemma role_eq_varTarget_iff (hident : site.token.isIdentifier = true) :
    site.role tokens = .varTarget ↔ VarTarget tokens site.index := by
  have hvar : site.before?.any (·.isKeyword .var) = true ↔
      KindBefore tokens site.index (.keyword .var) :=
    before_any_iff hsite fun _ => Token.isKeyword_iff
  have hkind : KindAt tokens site.index .identifier :=
    (kindAt_site_iff hsite).mpr (Token.isIdentifier_iff.mp hident)
  rw [VarTarget, ← hvar]
  constructor
  · intro h
    refine ⟨hkind, ?_⟩
    by_contra hnot
    rw [Site.role, if_neg hnot] at h
    split_ifs at h
  · rintro ⟨_, h⟩
    rw [Site.role, if_pos h]

/-- A site uses a variable exactly when its index does. -/
lemma role_eq_use_iff (hident : site.token.isIdentifier = true) :
    site.role tokens = .use ↔ VariableUse tokens site.index := by
  have hvar : site.before?.any (·.isKeyword .var) = true ↔
      KindBefore tokens site.index (.keyword .var) :=
    before_any_iff hsite fun _ => Token.isKeyword_iff
  have hkind : KindAt tokens site.index .identifier :=
    (kindAt_site_iff hsite).mpr (Token.isIdentifier_iff.mp hident)
  constructor
  · intro h
    rw [Site.role] at h
    split_ifs at h with h1 h2 h3 h4 h5 h6
    refine ⟨hkind, fun hr => h1 (hvar.mpr hr.2), fun hr => h2 (isLoopVariable_iff.mpr hr),
      fun hr => h3 (isParameter_iff.mpr hr), fun hr => h4 ((isFunctionName_iff hsite).mpr hr),
      fun hr => h5 ((isCall_iff hsite).mpr ⟨hkind, hr, ?_⟩),
      fun hr => h6 ((isMember_iff hsite).mpr hr)⟩
    exact fun hname => h4 ((isFunctionName_iff hsite).mpr hname)
  · intro h
    rw [Site.role, if_neg fun hr => h.not_target ⟨hkind, hvar.mp hr⟩,
      if_neg fun hr => h.not_loop (isLoopVariable_iff.mp hr),
      if_neg fun hr => h.not_parameter (isParameter_iff.mp hr),
      if_neg fun hr => h.not_function ((isFunctionName_iff hsite).mp hr),
      if_neg fun hr => h.not_called ((isCall_iff hsite).mp hr).2.1,
      if_neg fun hr => h.not_member ((isMember_iff hsite).mp hr)]

end Site

/-- The names that the head of a line declares are those of its loop variable and
its parameters. -/
lemma mem_headNames_iff {name : List Char} :
    name ∈ headNames tokens ↔
      ∃ index, HeadTarget tokens index ∧ SpelledAt tokens index name := by
  simp only [headNames, List.mem_map, List.mem_filter, Bool.or_eq_true, isLoopVariable_iff,
    isParameter_iff]
  constructor
  · rintro ⟨site, ⟨hsite, htarget⟩, rfl⟩
    exact ⟨site.index, htarget, site.token, (mem_ofTokens_iff.mp hsite).1, rfl⟩
  · rintro ⟨index, htarget, token, htoken, rfl⟩
    obtain ⟨site, hsite, rfl, rfl⟩ := exists_site htoken
    exact ⟨site, ⟨hsite, htarget⟩, rfl⟩

end Occurrences

end ScriptLint
