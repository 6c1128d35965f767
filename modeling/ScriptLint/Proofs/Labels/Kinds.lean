import Mathlib
import ScriptLint.Analysis
import ScriptLint.Proofs.Names.Occurrences

/-!
Maps of tokens that keep the kinds.

* `KeepsKinds`: a map of tokens that keeps their kinds; it may change what they are spelled
  like and where they stand.
* `Site.map`, `Site.ofTokens_map`: the surroundings of the tokens go along.
* `identifierRoles_map`, `calls_map`, `FunctionHeader.ofTokens?_map`: so do the roles, which
  are decided by kinds.
* `lineCost_map`: the estimate of the cost sees kinds only.
-/

namespace ScriptLint

/-- The map keeps the kinds of tokens. -/
def KeepsKinds (f : Token → Token) : Prop :=
  ∀ token, (f token).kind = token.kind

variable {f : Token → Token}

/-! ### Tokens -/

namespace KeepsKinds

variable (hf : KeepsKinds f) (token : Token)

include hf

lemma isIdentifier : (f token).isIdentifier = token.isIdentifier := by
  rw [Token.isIdentifier, hf, Token.isIdentifier]

lemma isKeyword (keyword : Keyword) :
    (f token).isKeyword keyword = token.isKeyword keyword := by
  rw [Token.isKeyword, hf, Token.isKeyword]

lemma isDelimiter (delimiter : Delimiter) :
    (f token).isDelimiter delimiter = token.isDelimiter delimiter := by
  rw [Token.isDelimiter, hf, Token.isDelimiter]

lemma keyword? : (f token).keyword? = token.keyword? := by
  rw [Token.keyword?, hf, Token.keyword?]

lemma invalidCharacter? : (f token).invalidCharacter? = token.invalidCharacter? := by
  rw [Token.invalidCharacter?, hf, Token.invalidCharacter?]

lemma isLogical : (f token).isLogical = token.isLogical := by
  rw [Token.isLogical, hf, Token.isLogical]

lemma isArithmetic : (f token).isArithmetic = token.isArithmetic := by
  rw [Token.isArithmetic, hf, Token.isArithmetic]

lemma isString : (f token).isString = token.isString := by
  rw [Token.isString, hf, Token.isString]

lemma isIndexable : (f token).isIndexable = token.isIndexable := by
  rw [Token.isIndexable, hf.isIdentifier, hf.isString, hf.isDelimiter, hf.isDelimiter,
    Token.isIndexable]

end KeepsKinds

/-! ### Sites -/

/-- The site with its tokens mapped. -/
def Site.map (f : Token → Token) (site : Site) : Site :=
  ⟨site.index, site.before?.map f, f site.token, site.after?.map f⟩

section Sites

variable (tokens : List Token) (site : Site)

lemma Site.ofTokensFrom_map (index : Nat) (before? : Option Token) :
    ofTokensFrom index (before?.map f) (tokens.map f) =
      (ofTokensFrom index before? tokens).map (Site.map f) := by
  induction tokens generalizing index before? with
  | nil => rfl
  | cons token rest ih =>
      rw [List.map_cons, ofTokensFrom, ofTokensFrom, List.map_cons, List.head?_map]
      exact congrArg _ (ih (index + 1) (some token))

/-- The sites of a line. -/
lemma Site.ofTokens_map : ofTokens (tokens.map f) = (ofTokens tokens).map (Site.map f) :=
  ofTokensFrom_map tokens 0 none

/-- A test of a neighbour of a site. -/
lemma any_neighbour_map {test : Token → Bool} (htest : ∀ token, test (f token) = test token)
    (neighbour? : Option Token) : (neighbour?.map f).any test = neighbour?.any test := by
  rw [Option.any_map]
  exact congrArg neighbour?.any (funext htest)

end Sites

/-! ### Roles -/

/-- The header with its name mapped. -/
def FunctionHeader.map (f : Token → Token) (header : FunctionHeader) : FunctionHeader :=
  ⟨f header.name, header.params⟩

section Roles

variable (hf : KeepsKinds f) (tokens : List Token) (site : Site)

include hf

lemma Site.isFunctionName_map : (site.map f).isFunctionName = site.isFunctionName :=
  any_neighbour_map (fun token => hf.isKeyword token _) site.before?

lemma Site.isMember_map : (site.map f).isMember = site.isMember :=
  any_neighbour_map (fun token => hf.isDelimiter token _) site.before?

lemma Site.isArrayStart_map : (site.map f).isArrayStart = site.isArrayStart := by
  rw [isArrayStart, isArrayStart, map, any_neighbour_map hf.isIndexable]
  exact congrArg (· && _) (hf.isDelimiter site.token _)

lemma Site.isCall_map : (site.map f).isCall = site.isCall := by
  rw [isCall, isCall, isFunctionName_map hf, map,
    any_neighbour_map fun token => hf.isDelimiter token .leftParen]
  exact congrArg (· && _ && _) (hf.isIdentifier site.token)

/-- The parameters of a header. -/
lemma FunctionHeader.paramsFrom_map (index depth : Nat) :
    paramsFrom index depth (tokens.map f) = paramsFrom index depth tokens := by
  induction tokens generalizing index depth with
  | nil => rfl
  | cons token rest ih =>
      simp only [List.map_cons, paramsFrom, hf.isDelimiter, hf.isIdentifier, ih]

/-- A header keeps the indices of its parameters. -/
lemma FunctionHeader.ofTokens?_map :
    ofTokens? (tokens.map f) = (ofTokens? tokens).map (FunctionHeader.map f) := by
  match tokens with
  | [] => rfl
  | [_] => rfl
  | first :: name :: rest =>
      have hparams : paramsAfterName (rest.map f) = paramsAfterName rest := by
        cases rest with
        | nil => rfl
        | cons third later =>
            rw [List.map_cons, paramsAfterName, hf.isDelimiter, paramsFrom_map hf,
              paramsAfterName]
      rw [List.map_cons, List.map_cons, ofTokens?, hf.isKeyword, hf.isIdentifier, hparams,
        ofTokens?]
      split_ifs <;> rfl

lemma startsCounting_map : startsCounting (tokens.map f) = startsCounting tokens := by
  match tokens with
  | [] => rfl
  | [_] => rfl
  | first :: second :: _ =>
      rw [List.map_cons, List.map_cons, startsCounting, hf.isKeyword, hf.isIdentifier,
        startsCounting]

lemma Site.isLoopVariable_map :
    (site.map f).isLoopVariable (tokens.map f) = site.isLoopVariable tokens := by
  rw [isLoopVariable, startsCounting_map hf, isLoopVariable]
  rfl

lemma Site.isParameter_map :
    (site.map f).isParameter (tokens.map f) = site.isParameter tokens := by
  rw [isParameter, parameterIndices, FunctionHeader.ofTokens?_map hf, isParameter,
    parameterIndices]
  cases FunctionHeader.ofTokens? tokens <;> rfl

/-- The role of a site. -/
lemma Site.role_map : (site.map f).role (tokens.map f) = site.role tokens := by
  have hvar : (site.map f).before?.any (·.isKeyword .var) = site.before?.any (·.isKeyword .var) :=
    any_neighbour_map (fun token => hf.isKeyword token .var) site.before?
  rw [role, role, hvar, isLoopVariable_map hf, isParameter_map hf, isFunctionName_map hf,
    isCall_map hf, isMember_map hf]

/-- The identifiers of a line keep their roles. -/
theorem identifierRoles_map :
    identifierRoles (tokens.map f) =
      (identifierRoles tokens).map fun entry => (entry.1.map f, entry.2) := by
  have hident : (fun site : Site => site.token.isIdentifier) ∘ Site.map f =
      fun site => site.token.isIdentifier := funext fun site => hf.isIdentifier site.token
  rw [identifierRoles, Site.ofTokens_map, List.filter_map, hident, List.map_map,
    identifierRoles, List.map_map]
  refine List.map_congr_left fun site _ => ?_
  rw [Function.comp_apply, Function.comp_apply, Site.role_map hf]

/-- The names that the head of a line declares are those of identifiers. -/
lemma headNames_map {rename : List Char → List Char}
    (hname : ∀ token : Token, token.kind = .identifier → (f token).lexeme = rename token.lexeme) :
    headNames (tokens.map f) = (headNames tokens).map rename := by
  have htest : (fun site : Site => site.isLoopVariable (tokens.map f) ||
      site.isParameter (tokens.map f)) ∘ Site.map f =
        fun site => site.isLoopVariable tokens || site.isParameter tokens := by
    funext site
    rw [Function.comp_apply, Site.isLoopVariable_map hf, Site.isParameter_map hf]
  rw [headNames, Site.ofTokens_map, List.filter_map, htest, List.map_map, headNames,
    List.map_map]
  refine List.map_congr_left fun site hmem => ?_
  obtain ⟨hsite, htarget⟩ := List.mem_filter.mp hmem
  rw [Bool.or_eq_true, isLoopVariable_iff, isParameter_iff] at htarget
  have hkind : KindAt tokens site.index .identifier := by
    rcases htarget with hloop | hparameter
    · exact hloop.1 ▸ hloop.2.2
    · exact hparameter.identifier
  exact hname site.token ((kindAt_site_iff hsite).mp hkind)

/-- The calls of a line. -/
theorem calls_map : calls (tokens.map f) = (calls tokens).map f := by
  have hcall : Site.isCall ∘ Site.map f = Site.isCall := funext fun site => site.isCall_map hf
  rw [calls, Site.ofTokens_map, List.filter_map, hcall, List.map_map, calls, List.map_map]
  rfl

end Roles

/-! ### Lines -/

section Lines

variable (hf : KeepsKinds f) (tokens : List Token)

include hf

lemma delimiterCount_map (delimiter : Delimiter) :
    delimiterCount delimiter (tokens.map f) = delimiterCount delimiter tokens := by
  rw [delimiterCount, List.countP_map]
  exact List.countP_congr fun token _ => by rw [Function.comp_apply, hf.isDelimiter]

/-- The condition of a loop. -/
lemma loopCondition_map : loopCondition (tokens.map f) = (loopCondition tokens).map f := by
  have hparen : (fun token : Token =>
      !(token.isDelimiter .leftParen || token.isDelimiter .rightParen)) ∘ f =
        fun token => !(token.isDelimiter .leftParen || token.isDelimiter .rightParen) := by
    funext token
    rw [Function.comp_apply, hf.isDelimiter, hf.isDelimiter]
  have hlast : ∀ inner : List Token, (inner.map f).getLast?.any (·.isKeyword .do_) =
      inner.getLast?.any (·.isKeyword .do_) := by
    intro inner
    rw [List.getLast?_map, Option.any_map]
    exact congrArg inner.getLast?.any (funext fun token => hf.isKeyword token .do_)
  simp only [loopCondition, List.filter_map, hparen, hlast, ← List.map_dropLast]
  exact (apply_ite (List.map f) _ _ _).symm

/-- A loop that cannot end, if what always holds still does. -/
lemma isEndless_map (htrue : ∀ token, (f token).isAlwaysTrue = token.isAlwaysTrue) :
    isEndless (tokens.map f) = isEndless tokens := by
  cases tokens with
  | nil => rfl
  | cons first rest =>
      rw [List.map_cons, isEndless, hf.isKeyword, loopCondition_map hf, isEndless]
      match loopCondition rest with
      | [] => rfl
      | [only] => exact congrArg (first.isKeyword .while_ && ·) (htrue only)
      | _ :: _ :: _ => rfl

/-! ### Costs -/

/-- The features of a line. -/
lemma LineFeatures.ofTokens_map : ofTokens (tokens.map f) = ofTokens tokens := by
  have hkeyword : ∀ test : Keyword → Bool,
      (fun token : Token => token.keyword?.any test) ∘ f =
        fun token => token.keyword?.any test :=
    fun test => funext fun token => congrArg (Option.any test) (hf.keyword? token)
  have hlogical : Token.isLogical ∘ f = Token.isLogical := funext hf.isLogical
  have harithmetic : Token.isArithmetic ∘ f = Token.isArithmetic := funext hf.isArithmetic
  have hstring : Token.isString ∘ f = Token.isString := funext hf.isString
  have hvar : (fun token : Token => token.isKeyword .var) ∘ f =
      fun token => token.isKeyword .var := funext fun token => hf.isKeyword token .var
  have harray : Site.isArrayStart ∘ Site.map f = Site.isArrayStart :=
    funext fun site => site.isArrayStart_map hf
  simp only [ofTokens, List.any_map, List.countP_map, Site.ofTokens_map, calls_map hf,
    List.length_map, hkeyword, hlogical, harithmetic, hstring, hvar, harray]

/-- **The cost of a line** depends on the kinds of its tokens only. -/
theorem lineCost_map {α : Type} [CostNumber α] (weights : Weights α) :
    lineCost weights (tokens.map f) = lineCost weights tokens := by
  rw [lineCost, LineFeatures.ofTokens_map hf, lineCost]

end Lines

end ScriptLint
