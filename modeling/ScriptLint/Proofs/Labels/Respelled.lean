import Mathlib
import ScriptLint.Proofs.Labels.Relabelled
import ScriptLint.Proofs.Names.Calls
import ScriptLint.Proofs.Text.Case

/-!
Lines whose keywords and built-in names are spelled in another case.

* `BuiltinUse`, `Respellable`: the tokens that may be spelled in either case.
* `Respells`: the tokens of a line, some of them spelled so.
* `Respells.line_eq`: each check takes the line as before.
* `verdictOn_respelled`: so the verdict on a script stays the same.
-/

namespace ScriptLint

/-! ### What may be respelled -/

/-- A built-in name that its line does not declare: it is no target of `var`, no loop variable, no
parameter and no name of a function that is being defined. -/
structure BuiltinUse (tokens : List Token) (index : ℕ) : Prop where
  identifier : KindAt tokens index .identifier
  isBuiltin : ∃ name, SpelledAt tokens index name ∧ Builtin.isBuiltin name = true
  not_target : ¬VarTarget tokens index
  not_loop : ¬LoopVariable tokens index
  not_parameter : ¬HeaderParameter tokens index
  not_function : ¬KindBefore tokens index (.keyword .function)

/-- A token that may be spelled in either case: a keyword, or a built-in name that its line does not
declare. -/
def Respellable (tokens : List Token) (index : ℕ) : Prop :=
  (∃ keyword, KindAt tokens index (.keyword keyword)) ∨ BuiltinUse tokens index

/-- An identifier that may be respelled is a built-in name. -/
lemma Respellable.builtinUse {tokens : List Token} {index : ℕ} (h : Respellable tokens index)
    (hkind : KindAt tokens index .identifier) : BuiltinUse tokens index := by
  refine h.resolve_left ?_
  rintro ⟨keyword, token, htoken, hkeyword⟩
  rw [kindAt_iff htoken, hkeyword] at hkind
  cases hkind

/-- The token with its word in small letters, if it is a word. -/
def Token.foldedWord (token : Token) : Token :=
  match token.kind with
  | .identifier | .keyword _ => { token with lexeme := Text.fold token.lexeme }
  | _ => token

/-- The tokens of a line in which some that may be respelled are. -/
structure Respells (tokens other : List Token) : Prop where
  folded : other.map Token.foldedWord = tokens.map Token.foldedWord
  kept : ∀ {index : ℕ} {token respelled : Token}, tokens[index]? = some token →
    other[index]? = some respelled → respelled = token ∨ Respellable tokens index

/-! ### Words in small letters -/

namespace Token

lemma keepsKinds_foldedWord : KeepsKinds foldedWord := by
  intro token
  rw [foldedWord]
  split <;> rfl

lemma foldedWord_column (token : Token) : token.foldedWord.column = token.column := by
  rw [foldedWord]
  split <;> rfl

lemma foldedWord_lexeme {token : Token} (h : token.kind = .identifier) :
    token.foldedWord.lexeme = Text.fold token.lexeme := by
  simp only [foldedWord, h]

lemma foldedWord_of_number {token : Token} (h : token.kind = .number) :
    token.foldedWord = token := by
  simp only [foldedWord, h]

end Token

/-- Names in small letters. -/
def Relabelling.small : Relabelling :=
  ⟨Text.fold, id, fun _ => id⟩

lemma Relabelling.relabels_foldedWord (number : ℕ) :
    small.Relabels number Token.foldedWord where
  kind := Token.keepsKinds_foldedWord
  column := Token.foldedWord_column
  name _ hkind := Token.foldedWord_lexeme hkind
  numeral token hkind := by rw [Token.foldedWord_of_number hkind]

/-- Names in another case are the same names. -/
lemma isNamedIn_fold (names : List String) {first second : List Char}
    (h : Text.fold first = Text.fold second) :
    Builtin.isNamedIn names first = Builtin.isNamedIn names second := by
  simp only [Builtin.isNamedIn, Text.sameName, h]

/-! ### Lists side by side -/

section Pairs

variable {α β γ : Type} {R S : α → β → Prop} {first : List α} {second : List β}
  {p : α → Bool} {q : β → Bool}

lemma forall₂_filter (h : List.Forall₂ R first second) (htest : ∀ a b, R a b → p a = q b)
    (hkept : ∀ a b, R a b → p a = true → S a b) :
    List.Forall₂ S (first.filter p) (second.filter q) := by
  induction h with
  | nil => exact .nil
  | @cons a b as bs hab _ ih =>
      rw [List.filter_cons, List.filter_cons, ← htest a b hab]
      split_ifs with hp
      · exact .cons (hkept a b hab hp) ih
      · exact ih

/-- The same lists under a function, member by member. -/
lemma forall₂_of_map_eq {f : α → γ} {later : List α} (h : later.map f = first.map f) :
    List.Forall₂ (fun a b => f b = f a ∧ a ∈ first ∧ b ∈ later) first later := by
  have hsame : List.Forall₂ (fun a b => f b = f a) first later := by
    rw [← List.forall₂_eq_eq_eq, List.forall₂_map_left_iff, List.forall₂_map_right_iff] at h
    exact h.flip
  obtain ⟨hlength, hpairs⟩ := List.forall₂_iff_zip.mp hsame
  exact List.forall₂_iff_zip.mpr ⟨hlength, fun hzip => ⟨hpairs hzip, List.of_mem_zip hzip⟩⟩

lemma map_eq_of_forall₂ {f : α → γ} {g : β → γ}
    (h : List.Forall₂ (fun a b => f a = g b) first second) : first.map f = second.map g := by
  induction h with
  | nil => rfl
  | cons hab _ ih => rw [List.map_cons, List.map_cons, hab, ih]

end Pairs

/-! ### Built-in names -/

section Builtin

variable {catalogue : Catalogue} {number : ℕ} {name : List Char}

/-- The use of a built-in name is not recorded. -/
lemma Scope.recordUse_of_isBuiltin (h : Builtin.isBuiltin name = true) (scope : Scope)
    (place : Position) : scope.recordUse catalogue name place = (scope, []) := by
  rw [recordUse, Catalogue.contains, h, Bool.true_or, if_pos rfl]

/-- A call of a built-in name is in order. -/
lemma Functions.knows_of_isBuiltin {functions : Functions} (h : Builtin.isBuiltin name = true) :
    functions.knows catalogue name = true := by
  rw [knows, Catalogue.reserves, Catalogue.contains, h, Bool.true_or, Bool.or_true, Bool.true_or]

/-- Identifiers that are taken in the same way one by one are so one after the other. -/
lemma Scope.identifiers_congr {first second : List (Site × Role)}
    (h : List.Forall₂ (fun entry other => ∀ scope : Scope,
      scope.identifier catalogue number other = scope.identifier catalogue number entry)
        first second) (scope : Scope) :
    scope.identifiers catalogue number second = scope.identifiers catalogue number first := by
  induction h generalizing scope with
  | nil => rfl
  | cons hentry _ ih => simp only [identifiers, hentry, ih]

end Builtin

/-! ### One line -/

section Line

variable {tokens other : List Token} {catalogue : Catalogue} {number : ℕ}

/-- Two sites that differ only in how a token is spelled, where it may be respelled. -/
structure Site.Respells (tokens : List Token) (site respelled : Site) : Prop where
  folded : respelled.map Token.foldedWord = site.map Token.foldedWord
  mem : site ∈ ofTokens tokens
  kept : respelled.token = site.token ∨ Respellable tokens site.index

/-- The sites of a respelled line. -/
lemma Respells.sites (h : Respells tokens other) :
    List.Forall₂ (Site.Respells tokens) (Site.ofTokens tokens) (Site.ofTokens other) := by
  have hmap : (Site.ofTokens other).map (Site.map Token.foldedWord) =
      (Site.ofTokens tokens).map (Site.map Token.foldedWord) := by
    rw [← Site.ofTokens_map, ← Site.ofTokens_map, h.folded]
  refine (forall₂_of_map_eq hmap).imp fun site respelled ⟨hsame, hsite, hrespelled⟩ => ?_
  have hindex : respelled.index = site.index := by
    simpa only [Site.map] using congrArg Site.index hsame
  have htoken := (mem_ofTokens_iff.mp hrespelled).1
  rw [hindex] at htoken
  exact ⟨hsame, hsite, h.kept (mem_ofTokens_iff.mp hsite).1 htoken⟩

namespace Site.Respells

variable {site respelled : Site}

/-- A token that its line declares, or that is no word, stays. -/
lemma token_eq (h : Site.Respells tokens site respelled)
    (hnot : ¬Respellable tokens site.index) : respelled.token = site.token :=
  h.kept.resolve_right hnot

lemma kind_eq (h : Site.Respells tokens site respelled) :
    respelled.token.kind = site.token.kind := by
  have htoken := congrArg (fun site : Site => site.token.kind) h.folded
  simpa only [Site.map, Token.keepsKinds_foldedWord _] using htoken

/-- An identifier is spelled as before, or it is a built-in name and stays one. -/
lemma token_eq_or (h : Site.Respells tokens site respelled)
    (hkind : site.token.kind = .identifier) :
    respelled.token = site.token ∨ BuiltinUse tokens site.index ∧
      Builtin.isBuiltin site.token.lexeme = true ∧
        Builtin.isBuiltin respelled.token.lexeme = true := by
  refine h.kept.imp_right fun hrespellable => ?_
  have hbuiltin := hrespellable.builtinUse ((kindAt_site_iff h.mem).mpr hkind)
  obtain ⟨name, ⟨token, htoken, rfl⟩, hname⟩ := hbuiltin.isBuiltin
  obtain rfl := Option.some.inj ((mem_ofTokens_iff.mp h.mem).1.symm.trans htoken)
  have hlexeme := congrArg (fun site : Site => site.token.lexeme) h.folded
  simp only [Site.map, Token.foldedWord_lexeme hkind,
    Token.foldedWord_lexeme (h.kind_eq.trans hkind)] at hlexeme
  refine ⟨hbuiltin, hname, ?_⟩
  rw [Builtin.isBuiltin, isNamedIn_fold _ hlexeme]
  exact hname

section Roles

variable (hline : ScriptLint.Respells tokens other) (h : Site.Respells tokens site respelled)

include hline h

lemma isLoopVariable_eq : respelled.isLoopVariable other = site.isLoopVariable tokens := by
  rw [← Site.isLoopVariable_map Token.keepsKinds_foldedWord, hline.folded, h.folded,
    Site.isLoopVariable_map Token.keepsKinds_foldedWord]

lemma isParameter_eq : respelled.isParameter other = site.isParameter tokens := by
  rw [← Site.isParameter_map Token.keepsKinds_foldedWord, hline.folded, h.folded,
    Site.isParameter_map Token.keepsKinds_foldedWord]

lemma role_eq : respelled.role other = site.role tokens := by
  rw [← Site.role_map Token.keepsKinds_foldedWord, hline.folded, h.folded,
    Site.role_map Token.keepsKinds_foldedWord]

omit hline in
lemma isCall_eq : respelled.isCall = site.isCall := by
  rw [← Site.isCall_map Token.keepsKinds_foldedWord, h.folded,
    Site.isCall_map Token.keepsKinds_foldedWord]

end Roles

end Site.Respells

/-! #### Names -/

namespace Respells

variable (h : Respells tokens other)

include h

/-- The head of the line declares the same names. -/
lemma headNames_eq : headNames other = headNames tokens := by
  refine (map_eq_of_forall₂ (forall₂_filter h.sites ?_ ?_)).symm
  · intro site respelled hsite
    rw [hsite.isLoopVariable_eq h, hsite.isParameter_eq h]
  · intro site respelled hsite hhead
    rw [Bool.or_eq_true, isLoopVariable_iff, isParameter_iff] at hhead
    rw [hsite.token_eq]
    rintro (⟨keyword, hkeyword⟩ | hbuiltin)
    · have hkind : KindAt tokens site.index .identifier :=
        hhead.elim (fun hloop => hloop.1 ▸ hloop.2.2) fun hparameter => hparameter.identifier
      rw [kindAt_site_iff hsite.mem] at hkeyword hkind
      exact TokenKind.noConfusion (hkind.symm.trans hkeyword)
    · exact hhead.elim hbuiltin.not_loop hbuiltin.not_parameter

/-- The identifiers of the line are taken in the same way. -/
lemma identifiers_eq (scope : Scope) :
    scope.identifiers catalogue number (identifierRoles other) =
      scope.identifiers catalogue number (identifierRoles tokens) := by
  refine Scope.identifiers_congr ?_ scope
  rw [identifierRoles, identifierRoles, List.forall₂_map_left_iff, List.forall₂_map_right_iff]
  refine forall₂_filter h.sites (fun site respelled hsite => ?_) ?_
  · rw [Token.isIdentifier, Token.isIdentifier, hsite.kind_eq]
  · intro site respelled hsite hident scope
    rw [hsite.role_eq h]
    rcases hsite.token_eq_or (Token.isIdentifier_iff.mp hident) with
      htoken | ⟨hbuiltin, hname, hrespelled⟩
    · cases site.role tokens <;> simp only [Scope.identifier, htoken]
    · cases hrole : site.role tokens with
      | varTarget =>
          exact absurd ((role_eq_varTarget_iff hsite.mem hident).mp hrole) hbuiltin.not_target
      | use =>
          rw [Scope.identifier, Scope.identifier, Scope.recordUse_of_isBuiltin hname,
            Scope.recordUse_of_isBuiltin hrespelled]
      | _ => rfl

/-- The line defines the same function. -/
lemma define_eq (functions : Functions) : functions.define other = functions.define tokens := by
  have hheaders : (FunctionHeader.ofTokens? other).map (FunctionHeader.map Token.foldedWord) =
      (FunctionHeader.ofTokens? tokens).map (FunctionHeader.map Token.foldedWord) := by
    rw [← FunctionHeader.ofTokens?_map Token.keepsKinds_foldedWord, h.folded,
      FunctionHeader.ofTokens?_map Token.keepsKinds_foldedWord]
  rw [Functions.define, Functions.define]
  cases hother : FunctionHeader.ofTokens? other with
  | none =>
      rw [hother, Option.map_none, eq_comm, Option.map_eq_none_iff] at hheaders
      rw [hheaders]
  | some header =>
      rw [hother, Option.map_some, eq_comm, Option.map_eq_some_iff] at hheaders
      obtain ⟨first, hfirst, -⟩ := hheaders
      obtain ⟨-, -, token, htoken, hname⟩ := defines_iff.mpr ⟨header, hother, rfl⟩
      obtain ⟨hfunction, hidentifier, same, hsame, hsameName⟩ :=
        defines_iff.mpr ⟨first, hfirst, rfl⟩
      have hkept : token = same := by
        refine (h.kept hsame htoken).resolve_right fun hrespellable => ?_
        exact (hrespellable.builtinUse hidentifier).not_function ⟨0, rfl, hfunction⟩
      have hheader : header.name.lexeme = first.name.lexeme := by
        rw [← hname, hkept, hsameName]
      simp only [hfirst, hheader]

/-- The same calls are unknown. -/
lemma unknownFindings_eq (functions : Functions) :
    functions.unknownFindings catalogue number other =
      functions.unknownFindings catalogue number tokens := by
  have hcalls : List.Forall₂ (fun call respelled : Token =>
      respelled = call ∨ functions.knows catalogue call.lexeme = true ∧
        functions.knows catalogue respelled.lexeme = true) (calls tokens) (calls other) := by
    rw [calls, calls, List.forall₂_map_left_iff, List.forall₂_map_right_iff]
    refine forall₂_filter h.sites (fun site respelled hsite => hsite.isCall_eq.symm) ?_
    intro site respelled hsite hcall
    have hkind := (kindAt_site_iff hsite.mem).mp ((isCall_iff hsite.mem).mp hcall).1
    refine (hsite.token_eq_or hkind).imp_right fun hbuiltin => ?_
    exact ⟨Functions.knows_of_isBuiltin hbuiltin.2.1, Functions.knows_of_isBuiltin hbuiltin.2.2⟩
  refine (map_eq_of_forall₂ (forall₂_filter hcalls ?_ ?_)).symm
  · rintro call respelled (rfl | ⟨hknown, hrespelled⟩)
    · rfl
    · rw [hknown, hrespelled]
  · rintro call respelled (rfl | ⟨hknown, -⟩) hunknown
    · rfl
    · rw [hknown] at hunknown
      cases hunknown

/-- Findings that name no identifier stay, if they go along with new labels. -/
lemma findings_eq {findings : List Token → List Finding}
    (hmap : ∀ line, findings (line.map Token.foldedWord) =
      (findings line).map (Finding.relabelled .small))
    (hkept : ∀ line, ∀ finding ∈ findings line, finding.relabelled .small = finding) :
    findings other = findings tokens := by
  have hsmall : ∀ line, findings (line.map Token.foldedWord) = findings line := by
    intro line
    rw [hmap, List.map_congr_left (hkept line)]
    exact List.map_id' _
  rw [← hsmall, h.folded, hsmall]

/-- The line is told to be endless as before. -/
lemma endlessFindings_eq : endlessFindings number other = endlessFindings number tokens := by
  refine h.findings_eq (fun line => ?_) fun line finding hfinding => ?_
  · refine endlessFindings_relabelled (Relabelling.relabels_foldedWord number) line fun name => ?_
    simp only [Relabelling.small, Text.sameName, Text.fold_fold]
  · obtain ⟨_, _, _, _, rfl⟩ := mem_endlessFindings_iff.mp hfinding
    rfl

/-- Brackets and characters are told as before. -/
lemma lineShapeFindings_eq :
    lineShapeFindings number other = lineShapeFindings number tokens := by
  refine h.findings_eq (fun line => ?_) fun line finding hfinding => ?_
  · exact lineShapeFindings_relabelled (Relabelling.relabels_foldedWord number) line
  · rcases mem_lineShapeFindings hfinding with ⟨kind, hsurplus⟩ | hinvalid
    · obtain ⟨_, _, _, _, _, _, _, _, rfl⟩ := unbalanced?_eq_some hsurplus
      rfl
    · obtain ⟨_, _, _, _, _, _, rfl⟩ := invalidCharacter?_eq_some hinvalid
      rfl

/-- Blocks are opened and closed as before. -/
lemma blockLine_eq (stack : List Frame) :
    blockLine stack number other = blockLine stack number tokens := by
  have hframe : Frame.relabelled .small = id := rfl
  have hstep : BlockStep.relabelled .small = id := by
    funext step
    cases step <;> rfl
  have hsmall : ∀ line : List Token,
      blockLine stack number (line.map Token.foldedWord) = blockLine stack number line := by
    intro line
    have hline := blockLine_relabelled (Relabelling.relabels_foldedWord number) stack line
    rwa [hframe, hstep, List.map_id, List.map_id, Option.map_id] at hline
  rw [← hsmall, h.folded, hsmall]

/-- **One line**: each check takes it as before. -/
theorem line_eq (checker : Checker) :
    checker.line catalogue number other = checker.line catalogue number tokens := by
  cases checker with
  | lineShape => rw [Checker.line, Checker.line, h.lineShapeFindings_eq]
  | blocks stack => rw [Checker.line, Checker.line, h.blockLine_eq]
  | declarations scope =>
      rw [Checker.line, Checker.line, Scope.line, Scope.line, Scope.declareHead,
        h.headNames_eq, h.identifiers_eq, Scope.declareHead]
  | calls functions =>
      rw [Checker.line, Checker.line, Functions.line, Functions.line, h.define_eq,
        h.unknownFindings_eq, h.endlessFindings_eq]

end Respells

end Line

/-! ### Scripts -/

section Scripts

variable {lines others : List TokenLine}

/-- The same line, some of whose tokens that may be respelled are. -/
structure TokenLine.Respells (line other : TokenLine) : Prop where
  number : other.number = line.number
  tokens : ScriptLint.Respells line.tokens other.tokens

/-- One line through several checks. -/
lemma Respells.lineAll_eq {catalogue : Catalogue} {number : ℕ} {tokens other : List Token}
    (h : Respells tokens other) (checkers : List Checker) :
    Checker.lineAll catalogue number other checkers =
      Checker.lineAll catalogue number tokens checkers := by
  induction checkers with
  | nil => rfl
  | cons first rest ih => simp only [Checker.lineAll, h.line_eq, ih]

/-- **The lines of a script.** -/
theorem overLines_respelled (h : List.Forall₂ TokenLine.Respells lines others)
    (catalogue : Catalogue) (checkers : List Checker) :
    overLines catalogue checkers others = overLines catalogue checkers lines := by
  induction h generalizing checkers with
  | nil => rfl
  | cons hline _ ih => simp only [overLines, hline.number, hline.tokens.lineAll_eq, ih]

/-- The estimate of the cost stays the same. -/
lemma totalCost_respelled {α : Type} [CostNumber α] (weights : Weights α)
    (h : List.Forall₂ TokenLine.Respells lines others) :
    totalCost weights (others.map TokenLine.tokens) =
      totalCost weights (lines.map TokenLine.tokens) := by
  have hcosts : others.map (lineCost weights ∘ TokenLine.tokens) =
      lines.map (lineCost weights ∘ TokenLine.tokens) := by
    refine (map_eq_of_forall₂ (h.imp fun line other hline => ?_)).symm
    rw [Function.comp_apply, Function.comp_apply, ← lineCost_map Token.keepsKinds_foldedWord,
      ← hline.tokens.folded, lineCost_map Token.keepsKinds_foldedWord]
  have htotal : ∀ script : List TokenLine, totalCost weights (script.map TokenLine.tokens) =
      (script.map (lineCost weights ∘ TokenLine.tokens)).foldl Metrics.add Metrics.zero := by
    intro script
    rw [totalCost, List.foldl_map, List.foldl_map]
    rfl
  rw [htotal, htotal, hcosts]

/-- **The verdict** on a script stays the same. -/
theorem verdictOn_respelled (h : List.Forall₂ TokenLine.Respells lines others)
    (settings : Settings) : verdictOn settings others = verdictOn settings lines := by
  simp only [verdictOn, allFindings, overLines_respelled h, totalCost_respelled _ h]

end Scripts

end ScriptLint
