import Mathlib
import ScriptLint.Proofs.Names.Account
import ScriptLint.Proofs.Names.Calls

/-!
How the check of calls and the check of variables divide the identifiers.

* `Checker.examined`: the tokens of a line whose names a check looks up.
* `mem_examined_calls_iff`, `mem_examined_declarations_iff`: these are the names that are called
  and the uses of variables.
* `examined_once`: an identifier that declares no name, names no function and is no member, or is
  a member that is called, is looked up by exactly one of the two.
* `NamesDivided`, `namesDivided`: what the two checks tell of unknown names on a script.
-/

namespace ScriptLint

/-! ### The tokens that are looked up -/

/-- The indices of the tokens whose names the check looks up, as calls or as variables. -/
def Checker.examined (tokens : List Token) : Checker → List Nat
  | calls _ => ((Site.ofTokens tokens).filter Site.isCall).map Site.index
  | declarations _ => ((identifierRoles tokens).filter (·.2 = .use)).map (·.1.index)
  | _ => []

section Examined

variable {tokens : List Token} {index : Nat} {token : Token}

lemma mem_examined_calls_iff {functions : Functions} :
    index ∈ (Checker.calls functions).examined tokens ↔ CallSite tokens index := by
  simp only [Checker.examined, List.mem_map, List.mem_filter, callSite_iff]
  constructor
  · rintro ⟨site, ⟨hsite, hcall⟩, rfl⟩
    exact (isCall_iff hsite).mp hcall
  · intro h
    obtain ⟨token, htoken, _⟩ := h.1
    obtain ⟨site, hsite, rfl, rfl⟩ := exists_site htoken
    exact ⟨site, ⟨hsite, (isCall_iff hsite).mpr h⟩, rfl⟩

lemma mem_examined_declarations_iff {scope : Scope} :
    index ∈ (Checker.declarations scope).examined tokens ↔ VariableUse tokens index := by
  simp only [Checker.examined, List.mem_map, List.mem_filter, decide_eq_true_eq]
  constructor
  · rintro ⟨⟨site, role⟩, ⟨hmem, rfl⟩, rfl⟩
    obtain ⟨hsite, hident, hrole⟩ := Scope.mem_identifierRoles_iff.mp hmem
    exact (role_eq_use_iff hsite hident).mp hrole
  · intro h
    obtain ⟨token, htoken, _⟩ := h.identifier
    obtain ⟨site, hsite, hident, rfl, rfl⟩ := Scope.exists_identifier_site htoken h.identifier
    exact ⟨(site, .use),
      ⟨Scope.mem_identifierRoles_iff.mpr ⟨hsite, hident, (role_eq_use_iff hsite hident).mpr h⟩,
        rfl⟩, rfl⟩

/-- What is called is no use of a variable. -/
lemma CallSite.not_variableUse (h : CallSite tokens index) : ¬ VariableUse tokens index :=
  fun huse => huse.not_called h.opened

/-- An identifier that declares no name, names no function and is not a member but called is
looked up by exactly one of the two checks. -/
theorem examined_once (functions : Functions) (scope : Scope)
    (hident : KindAt tokens index .identifier) (hvar : ¬ VarTarget tokens index)
    (hhead : ¬ HeadTarget tokens index) (hname : ¬ KindBefore tokens index (.keyword .function))
    (hmember : ¬ (KindBefore tokens index (.delimiter .dot) ∧ ¬ CallSite tokens index)) :
    Xor (index ∈ (Checker.calls functions).examined tokens)
      (index ∈ (Checker.declarations scope).examined tokens) := by
  rw [mem_examined_calls_iff, mem_examined_declarations_iff]
  by_cases hcall : CallSite tokens index
  · exact .inl ⟨hcall, hcall.not_variableUse⟩
  · refine .inr ⟨⟨hident, hvar, fun h => hhead (.inl h), fun h => hhead (.inr h), hname,
      fun hopened => hcall ⟨hident, hopened, hname⟩, fun hdot => hmember ⟨hdot, hcall⟩⟩, hcall⟩

end Examined

/-! ### Names that are reserved -/

/-- A name is not reserved if it differs from all keywords and built-in names by more than the
case of its letters. -/
lemma Catalogue.reserves_eq_false_iff {catalogue : Catalogue} {name : List Char} :
    catalogue.reserves name = false ↔
      ∀ word ∈ Keyword.all.map Keyword.word ++ Builtin.names ++ catalogue.extra,
        Text.fold word.toList ≠ Text.fold name := by
  have hkeywords : (Keyword.ofWord? name).isSome = false ↔
      ∀ word ∈ Keyword.all.map Keyword.word, Text.fold word.toList ≠ Text.fold name := by
    have hsmall : ∀ keyword : Keyword, Text.fold keyword.word.toList = keyword.word.toList := by
      intro keyword
      cases keyword <;> decide
    rw [Keyword.ofWord?, Option.isSome_eq_false_iff, Option.isNone_iff_eq_none,
      List.find?_eq_none, List.forall_mem_map]
    simp only [beq_iff_eq, hsmall, ne_eq]
  have hnames : ∀ names : List String, Builtin.isNamedIn names name = false ↔
      ∀ word ∈ names, Text.fold word.toList ≠ Text.fold name := by
    intro names
    simp [Builtin.isNamedIn, Text.sameName]
  rw [reserves, contains, Bool.or_eq_false_iff, Bool.or_eq_false_iff, hkeywords,
    Builtin.isBuiltin, hnames, hnames]
  simp only [List.forall_mem_append, and_assoc]

/-! ### What is told of unknown names -/

variable (catalogue : Catalogue) (lines : List TokenLine)

open scoped Classical in
/-- The two checks on a script: which calls and uses are told, each once and in order, and which
identifiers each of the checks looks up. -/
structure NamesDivided : Prop where
  unknown_issues : (((Checker.calls Functions.empty).findings catalogue (lines.map .line)).map
      Issue.ofFinding).filter (fun issue => issue.code = .unknownFunction) =
    ((occurrences lines).filter fun occurrence => occurrence.IsUnknownCall catalogue).map
      fun occurrence => ⟨occurrence.place, "Unknown function '" ++ occurrence.token.name ++ "'",
        .warning, .unknownFunction⟩
  /-- An unknown call is an identifier before a parenthesis and not behind `function`, which
  differs from all reserved names by more than the case of its letters and is defined, in exactly
  this spelling, by no header of its line or an earlier one. -/
  isUnknownCall_iff : ∀ occurrence : Occurrence, occurrence.IsUnknownCall catalogue ↔
    KindAt occurrence.line.tokens occurrence.index .identifier ∧
    KindAt occurrence.line.tokens (occurrence.index + 1) (.delimiter .leftParen) ∧
    ¬ KindBefore occurrence.line.tokens occurrence.index (.keyword .function) ∧
    (∀ word ∈ Keyword.all.map Keyword.word ++ Builtin.names ++ catalogue.extra,
      Text.fold word.toList ≠ Text.fold occurrence.token.lexeme) ∧
    ∀ line ∈ occurrence.before ++ [occurrence.line],
      ¬ Defines line.tokens occurrence.token.lexeme
  undeclared_issues : (((Checker.declarations Scope.empty).findings catalogue
      (lines.map .line)).map Issue.ofFinding).filter
        (fun issue => issue.code = .undeclaredVariable) =
    ((occurrences lines).filter fun occurrence => occurrence.IsUndeclared catalogue).map
      fun occurrence => Issue.ofFinding (occurrence.finding .undeclared)
  not_both : ∀ occurrence : Occurrence,
    ¬ (occurrence.IsUnknownCall catalogue ∧ occurrence.IsUndeclared catalogue)
  /-- Of the identifiers that a check looks up, it tells those that it does not know. -/
  told_iff_examined : ∀ (occurrence : Occurrence) (functions : Functions) (scope : Scope),
    (occurrence.IsUnknownCall catalogue ↔
      occurrence.index ∈ (Checker.calls functions).examined occurrence.line.tokens ∧
        catalogue.reserves occurrence.token.lexeme = false ∧ ¬ occurrence.IsDefined) ∧
    (occurrence.IsUndeclared catalogue ↔
      occurrence.index ∈ (Checker.declarations scope).examined occurrence.line.tokens ∧
        catalogue.contains occurrence.token.lexeme = false ∧
          Builtin.isLiteral occurrence.token.lexeme = false ∧ ¬ occurrence.Known)
  /-- Declarations, headers of functions and members that are not called apart, each identifier is
  looked up by exactly one of the two checks. -/
  examined_once : ∀ line ∈ lines, ∀ (index : Nat) (functions : Functions) (scope : Scope),
    KindAt line.tokens index .identifier → ¬ VarTarget line.tokens index →
    ¬ HeadTarget line.tokens index → ¬ KindBefore line.tokens index (.keyword .function) →
    ¬ (KindBefore line.tokens index (.delimiter .dot) ∧ ¬ CallSite line.tokens index) →
      Xor (index ∈ (Checker.calls functions).examined line.tokens)
        (index ∈ (Checker.declarations scope).examined line.tokens)

/-- **The division of names**: the check of calls tells of the calls of names that are neither
reserved nor defined, the check of variables of the uses of names that are not declared, no
identifier is told by both, and each that can be told is looked up by exactly one. -/
theorem namesDivided : NamesDivided catalogue lines where
  unknown_issues := by
    have hfindings := congrArg (List.map Issue.ofFinding) (unknown_findings_eq catalogue lines)
    rw [List.map_map] at hfindings
    rw [List.filter_map]
    exact hfindings
  isUnknownCall_iff occurrence := by
    rw [Occurrence.isUnknownCall_iff, callSite_iff, Catalogue.reserves_eq_false_iff,
      Occurrence.IsDefined]
    push Not
    simp only [and_assoc]
  undeclared_issues := by
    refine issues_filter_eq catalogue lines ?_ (fun _ => rfl) ?_
    · intro occurrence hundeclared
      rw [Occurrence.finding?, if_neg fun hr => hundeclared.unknown hr.2, if_pos hundeclared]
    · intro occurrence finding hundeclared hfinding
      rw [Occurrence.finding?, if_neg hundeclared] at hfinding
      split_ifs at hfinding
      obtain rfl := Option.some.inj hfinding
      exact fun hcode => by cases hcode
  not_both occurrence h := h.1.called.not_variableUse h.2.used
  told_iff_examined occurrence functions scope := by
    rw [mem_examined_calls_iff, mem_examined_declarations_iff]
    exact ⟨Occurrence.isUnknownCall_iff catalogue occurrence,
      Occurrence.isUndeclared_iff catalogue occurrence⟩
  examined_once line _ index functions scope := ScriptLint.examined_once functions scope

end ScriptLint
