import Mathlib
import ScriptLint.Proofs.Names.Occurrences
import ScriptLint.Token.Lexing

/-!
How the parameters of a header follow its parentheses.

* `FunctionHeader.visits`: the tokens of a line that the reading of parameters comes to, each
  with the number of open parentheses that it has counted.
* `params_eq_visits`: the parameters are the identifiers among them at depth one.
* `mem_visits_iff`: how far the reading comes, and that it counts the depth of `depthBefore`.
* `ClosedAt`, `visited_iff`: it stops at the parenthesis that matches the third token, or at the
  end of the line if there is none.
* `readsHeader`: which lines have a header, and its parameters.
-/

namespace ScriptLint

namespace FunctionHeader

/-! ### The tokens that the reading comes to -/

/-- The visits of a line: none unless its third token is a parenthesis, and from this token on
with a depth of zero before it. -/
def visits : List Token → List Visit
  | _ :: _ :: third :: rest =>
    if third.isDelimiter .leftParen then visitsFrom 2 0 (third :: rest) else []
  | _ => []

/-- The visits have indices one after the other. -/
lemma pairwise_visitsFrom (start depth : ℕ) (tokens : List Token) :
    (∀ visit ∈ visitsFrom start depth tokens, start ≤ visit.index) ∧
      (visitsFrom start depth tokens).Pairwise fun a b => a.index < b.index := by
  induction tokens generalizing start depth with
  | nil => exact ⟨fun visit hvisit => absurd hvisit List.not_mem_nil, .nil⟩
  | cons token rest ih =>
      have hrest : ∀ later : List Visit, (∀ visit ∈ later, start + 1 ≤ visit.index) ∧
          later.Pairwise (fun a b => a.index < b.index) →
          (∀ visit ∈ ⟨start, depth, token⟩ :: later, start ≤ visit.index) ∧
            (⟨start, depth, token⟩ :: later).Pairwise fun a b => a.index < b.index := by
        rintro later ⟨hle, hpairwise⟩
        refine ⟨List.forall_mem_cons.mpr ⟨le_rfl, fun visit hvisit => ?_⟩, .cons hle hpairwise⟩
        exact Nat.le_of_succ_le (hle visit hvisit)
      rw [visitsFrom]
      refine hrest _ ?_
      split_ifs
      · exact ih _ _
      · exact ⟨fun visit hvisit => absurd hvisit List.not_mem_nil, .nil⟩
      · exact ih _ _
      · exact ih _ _

end FunctionHeader

/-! ### Depths of a line -/

section Depth

variable {tokens : List Token} {index : ℕ} {token : Token}

/-- A token changes the depth by its weight. -/
lemma depthBefore_succ (hindex : 2 ≤ index) (htoken : tokens[index]? = some token) :
    depthBefore tokens (index + 1) = depthBefore tokens index + parenWeight token := by
  obtain ⟨hlt, rfl⟩ := List.getElem?_eq_some_iff.mp htoken
  have hdrop : (tokens.take (index + 1)).drop 2 =
      (tokens.take index).drop 2 ++ [tokens[index]] := by
    rw [List.take_succ_eq_append_getElem hlt, List.drop_append_of_le_length]
    rw [List.length_take]
    omega
  rw [depthBefore, hdrop, parenSum, List.map_append, List.sum_append]
  simp [depthBefore, parenSum]

/-- Behind the end of the line the depth stays. -/
lemma depthBefore_succ_of_le (hindex : tokens.length ≤ index) :
    depthBefore tokens (index + 1) = depthBefore tokens index := by
  rw [depthBefore, depthBefore, List.take_of_length_le hindex,
    List.take_of_length_le (Nat.le_succ_of_le hindex)]

lemma depthBefore_two : depthBefore tokens 2 = 0 := by
  have hempty : (tokens.take 2).drop 2 = [] :=
    List.drop_eq_nil_of_le (List.length_take_le 2 tokens)
  rw [depthBefore, hempty, parenSum_nil]

/-- Where the third token is a parenthesis, the depth behind it is one. -/
lemma depthBefore_three (h : KindAt tokens 2 (.delimiter .leftParen)) :
    depthBefore tokens 3 = 1 := by
  obtain ⟨third, hthird, hkind⟩ := h
  rw [depthBefore_succ le_rfl hthird, depthBefore_two, parenWeight_leftParen hkind, zero_add]

/-- A line with a token at index two has three tokens. -/
lemma exists_cons_of_kindAt {kind : TokenKind} (h : KindAt tokens 2 kind) :
    ∃ first second third rest, tokens = first :: second :: third :: rest := by
  match tokens with
  | [] | [_] | [_, _] => simp at h
  | first :: second :: third :: rest => exact ⟨first, second, third, rest, rfl⟩

/-- As long as the depth has not been zero, it is positive. -/
lemma depthBefore_pos (h : KindAt tokens 2 (.delimiter .leftParen)) (hindex : 3 ≤ index)
    (hopen : ∀ earlier, 3 ≤ earlier → earlier ≤ index → depthBefore tokens earlier ≠ 0) :
    0 < depthBefore tokens index := by
  induction index, hindex using Nat.le_induction with
  | base => rw [depthBefore_three h]; exact one_pos
  | succ index hindex ih =>
      have hpos := ih fun earlier hinside hle => hopen earlier hinside (Nat.le_succ_of_le hle)
      have hne := hopen (index + 1) (by omega) le_rfl
      cases htoken : tokens[index]? with
      | none =>
          rw [depthBefore_succ_of_le (List.getElem?_eq_none_iff.mp htoken)]
          exact hpos
      | some token =>
          have hstep := depthBefore_succ (by omega) htoken
          have hweight : -1 ≤ parenWeight token := by
            rw [parenWeight]
            split_ifs <;> decide
          omega

/-- The parenthesis that matches the third token: the first one behind which none is open. -/
structure ClosedAt (tokens : List Token) (close : ℕ) : Prop where
  inside : 3 ≤ close
  closes : KindAt tokens close (.delimiter .rightParen)
  closed : depthBefore tokens (close + 1) = 0
  still_open : ∀ earlier, 3 ≤ earlier → earlier ≤ close → depthBefore tokens earlier ≠ 0

/-- Where the depth is zero, the parenthesis that matches the third token stands before. -/
lemma exists_closedAt (h : KindAt tokens 2 (.delimiter .leftParen)) (hindex : 3 ≤ index)
    (hzero : depthBefore tokens index = 0) : ∃ close, close < index ∧ ClosedAt tokens close := by
  induction index using Nat.strong_induction_on with
  | _ index ih =>
      by_cases hopen : ∀ earlier, 3 ≤ earlier → earlier < index → depthBefore tokens earlier ≠ 0
      · -- the depth is zero for the first time
        have hne : index ≠ 3 := by
          rintro rfl
          rw [depthBefore_three h] at hzero
          cases hzero
        obtain ⟨close, rfl⟩ := Nat.exists_eq_add_of_le' (by omega : 1 ≤ index)
        have hstill : ∀ earlier, 3 ≤ earlier → earlier ≤ close → depthBefore tokens earlier ≠ 0 :=
          fun earlier hinside hle => hopen earlier hinside (Nat.lt_succ_of_le hle)
        have hpos := depthBefore_pos h (by omega) hstill
        refine ⟨close, Nat.lt_succ_self close, by omega, ?_, hzero, hstill⟩
        cases htoken : tokens[close]? with
        | none =>
            rw [depthBefore_succ_of_le (List.getElem?_eq_none_iff.mp htoken)] at hzero
            omega
        | some token =>
            -- only a closing parenthesis takes one off
            rw [depthBefore_succ (by omega) htoken, parenWeight] at hzero
            refine ⟨token, htoken, ?_⟩
            split_ifs at hzero with hleft hright
            · omega
            · exact hright
            · omega
      · push Not at hopen
        obtain ⟨earlier, hinside, hlt, hearly⟩ := hopen
        obtain ⟨close, hclose, hclosed⟩ := ih earlier hlt hinside hearly
        exact ⟨close, hclose.trans hlt, hclosed⟩

end Depth

/-! ### The parameters of a line -/

namespace FunctionHeader

variable {tokens : List Token} {index : ℕ} {visit : Visit} {header : FunctionHeader}

/-- The visits of a line whose third token is a parenthesis. -/
lemma visits_of_opened {first second third : Token} {rest : List Token}
    (h : third.kind = .delimiter .leftParen) :
    visits (first :: second :: third :: rest) = ⟨2, 0, third⟩ :: visitsFrom 3 1 rest := by
  rw [visits, if_pos (by simpa using h), visitsFrom, if_pos (by simpa using h)]

/-- Without such a token nothing is visited. -/
lemma visits_of_not_opened (h : ¬ KindAt tokens 2 (.delimiter .leftParen)) : visits tokens = [] := by
  match tokens with
  | [] | [_] | [_, _] => rfl
  | first :: second :: third :: rest =>
      rw [visits, if_neg]
      simpa using h

lemma pairwise_visits (tokens : List Token) :
    (visits tokens).Pairwise fun a b => a.index < b.index := by
  match tokens with
  | [] | [_] | [_, _] => exact .nil
  | _ :: _ :: third :: rest =>
      rw [visits]
      split_ifs
      · exact (pairwise_visitsFrom _ _ _).2
      · exact .nil

/-- **The reading of parameters**: it comes to all tokens from the third on, if that is a
parenthesis, before which the depth has not been zero again, and it counts this depth. -/
theorem mem_visits_iff : visit ∈ visits tokens ↔
    KindAt tokens 2 (.delimiter .leftParen) ∧ 2 ≤ visit.index ∧
      tokens[visit.index]? = some visit.token ∧ visit.depth = depthBefore tokens visit.index ∧
        ∀ earlier, 3 ≤ earlier → earlier ≤ visit.index → depthBefore tokens earlier ≠ 0 := by
  by_cases hopened : KindAt tokens 2 (.delimiter .leftParen)
  · obtain ⟨first, second, third, rest, rfl⟩ := exists_cons_of_kindAt hopened
    have hthird : third.kind = .delimiter .leftParen := by simpa using hopened
    rw [visits_of_opened hthird, List.mem_cons, mem_visitsFrom_iff le_rfl, and_iff_right hopened]
    constructor
    · rintro (rfl | ⟨offset, hindex, htoken, hdepth, hopen⟩)
      · refine ⟨le_rfl, rfl, depthBefore_two.symm, fun earlier hinside hle => ?_⟩
        exact absurd (hinside.trans hle) (by decide : ¬ 3 ≤ 2)
      · rw [hindex, depthBefore_eq offset hthird]
        refine ⟨by omega, ?_, hdepth, fun earlier hinside hle => ?_⟩
        · rw [Nat.add_comm]
          exact htoken
        · obtain ⟨distance, rfl⟩ := Nat.exists_eq_add_of_le hinside
          rw [depthBefore_eq distance hthird]
          exact hopen distance (Nat.le_of_add_le_add_left hle)
    · rintro ⟨hle, htoken, hdepth, hopen⟩
      rcases hle.eq_or_lt with hfirst | hlater
      · left
        rw [← hfirst, depthBefore_two, Nat.cast_eq_zero] at hdepth
        rw [← hfirst] at htoken
        obtain ⟨place, depth, token⟩ := visit
        obtain rfl : 2 = place := hfirst
        obtain rfl : depth = 0 := hdepth
        obtain rfl : third = token := Option.some.inj htoken
        rfl
      · obtain ⟨offset, hindex⟩ := Nat.exists_eq_add_of_le hlater
        rw [hindex] at htoken hopen
        refine .inr ⟨offset, hindex, ?_, ?_, fun earlier hle => ?_⟩
        · rw [Nat.add_comm] at htoken
          exact htoken
        · rw [hdepth, hindex]
          exact depthBefore_eq offset hthird
        · have hne := hopen (3 + earlier) (Nat.le_add_right 3 earlier) (Nat.add_le_add_left hle 3)
          rwa [depthBefore_eq earlier hthird] at hne
  · rw [visits_of_not_opened hopened]
    exact iff_of_false List.not_mem_nil fun h => hopened h.1

/-- It goes on to the parenthesis that matches the third token, or to the end of the line. -/
theorem visited_iff : (∃ visit ∈ visits tokens, visit.index = index) ↔
    KindAt tokens 2 (.delimiter .leftParen) ∧ 2 ≤ index ∧ index < tokens.length ∧
      ∀ close, ClosedAt tokens close → index ≤ close := by
  constructor
  · rintro ⟨visit, hvisit, rfl⟩
    obtain ⟨hopened, hle, htoken, -, hopen⟩ := mem_visits_iff.mp hvisit
    refine ⟨hopened, hle, (List.getElem?_eq_some_iff.mp htoken).1, fun close hclose => ?_⟩
    by_contra hlt
    exact hopen (close + 1) (Nat.le_succ_of_le hclose.inside) (Nat.lt_of_not_le hlt) hclose.closed
  · rintro ⟨hopened, hle, hlt, hclose⟩
    have hopen : ∀ earlier, 3 ≤ earlier → earlier ≤ index → depthBefore tokens earlier ≠ 0 := by
      intro earlier hinside hearly hzero
      obtain ⟨close, hbefore, hclosed⟩ := exists_closedAt hopened hinside hzero
      have hreach := hclose close hclosed
      omega
    have hdepth : 0 ≤ depthBefore tokens index := by
      rcases hle.eq_or_lt with rfl | hinside
      · exact depthBefore_two.ge
      · exact (depthBefore_pos hopened hinside hopen).le
    refine ⟨⟨index, (depthBefore tokens index).toNat, tokens[index]⟩, ?_, rfl⟩
    exact mem_visits_iff.mpr ⟨hopened, hle, List.getElem?_eq_getElem hlt,
      Int.toNat_of_nonneg hdepth, hopen⟩

/-- A line with a header starts with `function` and the name. -/
lemma exists_of_ofTokens? (h : ofTokens? tokens = some header) :
    ∃ first rest, tokens = first :: header.name :: rest ∧ first.kind = .keyword .function ∧
      header.name.kind = .identifier ∧ header.params = paramsAfterName rest := by
  match tokens with
  | [] | [_] => cases h
  | first :: name :: rest =>
      rw [ofTokens?] at h
      split_ifs at h with hheader
      obtain rfl := Option.some.inj h
      rw [Bool.and_eq_true, Token.isKeyword_iff, Token.isIdentifier_iff] at hheader
      exact ⟨first, rest, rfl, hheader.1, hheader.2, rfl⟩

lemma isSome_ofTokens?_iff : (ofTokens? tokens).isSome ↔
    KindAt tokens 0 (.keyword .function) ∧ KindAt tokens 1 .identifier := by
  match tokens with
  | [] => simp [ofTokens?]
  | [_] => simp [ofTokens?]
  | first :: name :: rest => simp [ofTokens?]

lemma parameterIndices_eq (h : ofTokens? tokens = some header) :
    parameterIndices tokens = header.params := by
  rw [parameterIndices, h]

/-- The parameters of a header are the identifiers that are visited at depth one. -/
lemma params_eq_visits (h : ofTokens? tokens = some header) :
    header.params = ((visits tokens).filter Visit.isParameter).map Visit.index := by
  obtain ⟨first, rest, rfl, -, -, hparams⟩ := exists_of_ofTokens? h
  rw [hparams]
  match rest with
  | [] => rfl
  | third :: later =>
      rw [paramsAfterName]
      by_cases hopened : third.kind = .delimiter .leftParen
      · rw [if_pos (by simpa using hopened), visits_of_opened hopened, paramsFrom_eq_visitsFrom]
        rfl
      · rw [if_neg (by simpa using hopened), visits_of_not_opened (by simpa using hopened)]
        rfl

/-- What is read off a line as the header of a function. -/
structure ReadsHeader (tokens : List Token) : Prop where
  isSome_iff : (ofTokens? tokens).isSome ↔
    KindAt tokens 0 (.keyword .function) ∧ KindAt tokens 1 .identifier
  name_eq : ∀ header, ofTokens? tokens = some header → tokens[1]? = some header.name
  /-- Parameters are identifiers directly inside the parentheses that the third token opens. -/
  mem_params_iff : ∀ header, ofTokens? tokens = some header → ∀ index, index ∈ header.params ↔
    3 ≤ index ∧ KindAt tokens index .identifier ∧ KindAt tokens 2 (.delimiter .leftParen) ∧
      depthBefore tokens index = 1 ∧
        ∀ earlier, 3 ≤ earlier → earlier ≤ index → depthBefore tokens earlier ≠ 0
  params_increase : ∀ header, ofTokens? tokens = some header → header.params.Pairwise (· < ·)
  params_eq_visits : ∀ header, ofTokens? tokens = some header →
    header.params = ((visits tokens).filter Visit.isParameter).map Visit.index
  /-- The reading stops at the parenthesis that matches the third token, if there is one. -/
  visited_iff : ∀ index, (∃ visit ∈ visits tokens, visit.index = index) ↔
    KindAt tokens 2 (.delimiter .leftParen) ∧ 2 ≤ index ∧ index < tokens.length ∧
      ∀ close, ClosedAt tokens close → index ≤ close
  not_param_of_deep : ∀ header, ofTokens? tokens = some header → ∀ index,
    2 ≤ depthBefore tokens index → index ∉ header.params
  not_param_of_closed : ∀ header, ofTokens? tokens = some header → ∀ close,
    ClosedAt tokens close → ∀ index, close ≤ index → index ∉ header.params
  /-- Where a closing parenthesis takes one off the depth, there is one to take. -/
  depth_pos : ∀ visit ∈ visits tokens, visit.token.kind = .delimiter .rightParen →
    0 < visit.depth ∧ ((visit.depth - 1 : ℕ) : ℤ) = depthBefore tokens (visit.index + 1)

/-- **Headers**: a line that starts with `function` and an identifier has a header, whose
parameters are the identifiers at depth one up to the parenthesis that matches the third token. -/
theorem readsHeader (tokens : List Token) : ReadsHeader tokens where
  isSome_iff := isSome_ofTokens?_iff
  name_eq header h := by
    obtain ⟨_, _, rfl, -⟩ := exists_of_ofTokens? h
    rfl
  mem_params_iff header h index := by
    have hkinds := isSome_ofTokens?_iff.mp (Option.isSome_of_eq_some h)
    rw [← parameterIndices_eq h, mem_parameterIndices_iff]
    constructor
    · rintro ⟨-, -, hopened, hinside, hident, hone, hopen⟩
      exact ⟨hinside, hident, hopened, hone, hopen⟩
    · rintro ⟨hinside, hident, hopened, hone, hopen⟩
      exact ⟨hkinds.1, hkinds.2, hopened, hinside, hident, hone, hopen⟩
  params_increase header h := by
    rw [params_eq_visits h, List.pairwise_map]
    exact (pairwise_visits tokens).filter _
  params_eq_visits header := params_eq_visits
  visited_iff index := visited_iff
  not_param_of_deep header h index hdeep hparam := by
    rw [← parameterIndices_eq h, mem_parameterIndices_iff] at hparam
    rw [hparam.depth_eq_one] at hdeep
    exact absurd hdeep (by decide)
  not_param_of_closed header h close hclose index hle hparam := by
    rw [← parameterIndices_eq h, mem_parameterIndices_iff] at hparam
    rcases hle.eq_or_lt with rfl | hlt
    · -- a parenthesis is no identifier
      obtain ⟨token, htoken, hkind⟩ := hclose.closes
      obtain ⟨_, htoken', hident⟩ := hparam.identifier
      obtain rfl := Option.some.inj (htoken.symm.trans htoken')
      rw [hkind] at hident
      cases hident
    · exact hparam.still_open (close + 1) (Nat.le_succ_of_le hclose.inside) hlt hclose.closed
  depth_pos visit hvisit hright := by
    obtain ⟨hopened, hle, htoken, hdepth, hopen⟩ := mem_visits_iff.mp hvisit
    have hinside : 3 ≤ visit.index := by
      refine Nat.lt_of_le_of_ne hle fun heq => ?_
      rw [kindAt_iff (heq ▸ htoken), hright] at hopened
      cases hopened
    have hpos := depthBefore_pos hopened hinside hopen
    have hweight : parenWeight visit.token = -1 := by simp [parenWeight, hright]
    rw [depthBefore_succ hle htoken, hweight]
    omega

/-- The name inside further parentheses and the one behind the last are no parameters. -/
example : (ofTokens? (Token.ofLine ⟨1, "function f(a, (b), c) d".toList, 0⟩)).map params =
    some [3, 9] := by
  decide +kernel

end FunctionHeader

end ScriptLint
