import Mathlib
import ScriptLint.Proofs.Labels.Kinds
import ScriptLint.Proofs.Messages
import ScriptLint.Proofs.Visits

/-!
Scripts with other labels: other names for identifiers, and other places.

* `Relabelling`: new names, new lines, and new columns on each line.
* `Finding.relabelled`, `Checker.relabelled`: what is found and what is learnt, under the new
  labels.
* `Relabelling.Relabels`: a map of the tokens of a line puts the new labels on them.
* `Relabelling.Faithful`: the new names mean what the old ones mean.
* `Checker.line_relabelled`: each check takes a relabelled line as it takes the line.
* `allFindings_relabelled`: so the findings on a relabelled script are the relabelled findings.
* `Verdict.Relabelled`, `verdictOn_relabelled`: its verdict tells the same under the new labels.
* `Relabelling.same`, `Verdict.Relabelled.eq_of_same`: under the labels that are there, that is
  the same verdict.
-/

namespace ScriptLint

/-- New labels for what a script holds. -/
structure Relabelling where
  /-- The new name of an identifier. -/
  name : List Char → List Char
  /-- The new number of a line. -/
  line : Nat → Nat
  /-- The new column on a line, which is given by its old number. -/
  column : Nat → Nat → Nat

/-! ### What is relabelled -/

section Relabelled

variable (labels : Relabelling)

/-- The place under new labels. -/
def Position.relabelled (place : Position) : Position :=
  ⟨labels.line place.line, labels.column place.line place.column⟩

/-- The name under new labels. -/
def Relabelling.text (name : String) : String :=
  String.ofList (labels.name name.toList)

/-- The problem under new labels. -/
def Problem.relabelled : Problem → Problem
  | unclosed kind openedAt => unclosed kind (labels.line openedAt)
  | mismatched closer opened openedAt => mismatched closer opened (labels.line openedAt)
  | redeclared name => redeclared (labels.text name)
  | undeclared name => undeclared (labels.text name)
  | unused name => unused (labels.text name)
  | unknownFunction name => unknownFunction (labels.text name)
  | problem => problem

/-- The finding under new labels. -/
def Finding.relabelled (finding : Finding) : Finding :=
  ⟨finding.place.relabelled labels, finding.problem.relabelled labels⟩

/-- The open block under new labels. -/
def Frame.relabelled (frame : Frame) : Frame :=
  ⟨frame.kind, frame.openedAt.relabelled labels⟩

/-- The step under new labels. -/
def BlockStep.relabelled : BlockStep → BlockStep
  | opened frame depth => opened (frame.relabelled labels) depth
  | closed frame place => closed (frame.relabelled labels) (place.relabelled labels)
  | mismatched frame closer place =>
    mismatched (frame.relabelled labels) closer (place.relabelled labels)
  | stray closer place => stray closer (place.relabelled labels)

/-- The variable under new labels. -/
def Variable.relabelled (entry : Variable) : Variable :=
  ⟨labels.name entry.name, entry.place.relabelled labels⟩

/-- What is known about names, under new labels. -/
def Scope.relabelled (scope : Scope) : Scope :=
  ⟨scope.declared.map labels.name, scope.used.map labels.name,
    scope.introduced.map (Variable.relabelled labels)⟩

/-- The functions defined so far, under new labels. -/
def Functions.relabelled (functions : Functions) : Functions :=
  ⟨functions.defined.map labels.name⟩

/-- The check with all that it has learnt, under new labels. -/
def Checker.relabelled : Checker → Checker
  | lineShape => lineShape
  | blocks stack => blocks (stack.map (Frame.relabelled labels))
  | declarations scope => declarations (scope.relabelled labels)
  | calls functions => calls (functions.relabelled labels)

end Relabelled

namespace Relabelling

/-- The map puts the new labels on the tokens of a line, and changes no numeral. -/
structure Relabels (labels : Relabelling) (number : Nat) (f : Token → Token) : Prop where
  kind : KeepsKinds f
  column : ∀ token, (f token).column = labels.column number token.column
  name : ∀ token : Token, token.kind = .identifier → (f token).lexeme = labels.name token.lexeme
  numeral : ∀ token : Token, token.kind = .number → (f token).lexeme = token.lexeme

/-- No two names become one, and the new names mean what the old ones mean. -/
structure Faithful (catalogue : Catalogue) (labels : Relabelling) : Prop where
  injective : Function.Injective labels.name
  contains : ∀ name, catalogue.contains (labels.name name) = catalogue.contains name
  reserves : ∀ name, catalogue.reserves (labels.name name) = catalogue.reserves name
  isLiteral : ∀ name, Builtin.isLiteral (labels.name name) = Builtin.isLiteral name
  sameTrue : ∀ name, Text.sameName (labels.name name) "true".toList =
    Text.sameName name "true".toList

/-- The labels that are there. -/
def same : Relabelling :=
  ⟨id, id, fun _ => id⟩

/-- Names that stay mean what they mean. -/
lemma faithful_of_name_eq {labels : Relabelling} (h : labels.name = id)
    (catalogue : Catalogue) : labels.Faithful catalogue := by
  constructor <;> simp [h, Function.injective_id]

/-- A name is in a list of names under new labels. -/
lemma Faithful.contains_map {labels : Relabelling} {catalogue : Catalogue}
    (h : labels.Faithful catalogue) (names : List (List Char)) (name : List Char) :
    (names.map labels.name).contains (labels.name name) = names.contains name := by
  rw [Bool.eq_iff_iff, List.contains_iff_mem, List.contains_iff_mem,
    List.mem_map_of_injective h.injective]

end Relabelling

/-- The name in a header is an identifier. -/
lemma FunctionHeader.name_kind {tokens : List Token} {header : FunctionHeader}
    (h : ofTokens? tokens = some header) : header.name.kind = .identifier := by
  match tokens with
  | [] => cases h
  | [_] => cases h
  | first :: name :: rest =>
      rw [ofTokens?] at h
      split_ifs at h with htest
      obtain rfl := Option.some.inj h
      exact Token.isIdentifier_iff.mp (Bool.and_eq_true_iff.mp htest).2

/-! ### One line -/

section Line

variable {catalogue : Catalogue} {labels : Relabelling} {number : Nat} {f : Token → Token}

/-! #### Brackets and characters -/

section Shape

variable (hf : labels.Relabels number f) (tokens : List Token)

include hf

lemma unbalanced?_relabelled (kind : BracketKind) :
    unbalanced? kind (labels.line number) (tokens.map f) =
      (unbalanced? kind number tokens).map (Finding.relabelled labels) := by
  have hfind : ∀ delimiter : Delimiter,
      (fun token => Token.isDelimiter token delimiter) ∘ f =
        fun token => token.isDelimiter delimiter :=
    fun delimiter => funext fun token => hf.kind.isDelimiter token delimiter
  simp only [unbalanced?, delimiterCount_map hf.kind, List.find?_map, hfind, Option.map_map]
  split_ifs
  · rfl
  · rw [Option.map_map]
    refine Option.map_congr fun token _ => ?_
    rw [Function.comp_apply, hf.column]
    rfl

lemma invalidCharacter?_relabelled :
    ScriptLint.invalidCharacter? (labels.line number) (tokens.map f) =
      (ScriptLint.invalidCharacter? number tokens).map (Finding.relabelled labels) := by
  rw [ScriptLint.invalidCharacter?, ScriptLint.invalidCharacter?, List.findSome?_map,
    List.map_findSome?]
  congr 1
  funext token
  rw [Function.comp_apply, Function.comp_apply, hf.kind.invalidCharacter?, Option.map_map,
    hf.column]
  rfl

lemma lineShapeFindings_relabelled :
    lineShapeFindings (labels.line number) (tokens.map f) =
      (lineShapeFindings number tokens).map (Finding.relabelled labels) := by
  simp only [lineShapeFindings, unbalanced?_relabelled hf, invalidCharacter?_relabelled hf,
    List.filterMap_eq_flatMap_toList, List.flatMap_cons, List.flatMap_nil, id_eq,
    Option.toList_map, List.map_append, List.map_nil]

/-- A loop that cannot end, if the word for what always holds still is that word. -/
lemma endlessFindings_relabelled (hsame : ∀ name,
    Text.sameName (labels.name name) "true".toList = Text.sameName name "true".toList) :
    endlessFindings (labels.line number) (tokens.map f) =
      (endlessFindings number tokens).map (Finding.relabelled labels) := by
  have htrue : ∀ token, (f token).isAlwaysTrue = token.isAlwaysTrue := by
    intro token
    rw [Token.isAlwaysTrue, Token.isAlwaysTrue, hf.kind]
    cases hkind : token.kind with
    | identifier => simp only [hf.name token hkind, hsame]
    | number => simp only [hf.numeral token hkind]
    | _ => rfl
  rw [endlessFindings, isEndless_map hf.kind _ htrue, endlessFindings]
  split_ifs
  · cases tokens with
    | nil => rfl
    | cons first rest =>
        rw [List.map_cons, List.head?_cons, List.head?_cons, Option.toList_some,
          Option.toList_some, List.map_singleton, List.map_singleton, List.map_singleton,
          hf.column]
        rfl
  · rfl

end Shape

/-! #### Blocks -/

section Blocks

variable (hf : labels.Relabels number f)

/-- One step on the open blocks. -/
lemma BlockStep.take_relabelled (labels : Relabelling) (stack : List Frame) (place : Position)
    (mark : BlockMark) :
    take (stack.map (Frame.relabelled labels)) (place.relabelled labels) mark =
      ((take stack place mark).1.map (Frame.relabelled labels),
        (take stack place mark).2.relabelled labels) := by
  cases mark with
  | opens kind => simp [take, relabelled, Frame.relabelled]
  | closes kind =>
      cases stack with
      | nil => rfl
      | cons frame outer =>
          have hkind : (frame.relabelled labels).kind = frame.kind := rfl
          simp only [take, List.map_cons, hkind]
          split_ifs <;> rfl

lemma BlockStep.finding?_relabelled (step : BlockStep) :
    (step.relabelled labels).finding? = step.finding?.map (Finding.relabelled labels) := by
  cases step <;> rfl

include hf

lemma blockLine_relabelled (stack : List Frame) (tokens : List Token) :
    blockLine (stack.map (Frame.relabelled labels)) (labels.line number) (tokens.map f) =
      ((blockLine stack number tokens).1.map (Frame.relabelled labels),
        (blockLine stack number tokens).2.map (BlockStep.relabelled labels)) := by
  have hmark : BlockMark.ofTokens? (tokens.map f) =
      (BlockMark.ofTokens? tokens).map fun (mark, column) =>
        (mark, labels.column number column) := by
    cases tokens with
    | nil => rfl
    | cons first rest =>
        rw [List.map_cons, BlockMark.ofTokens?, BlockMark.ofTokens?, hf.kind.keyword?,
          List.isEmpty_map, hf.column]
        cases first.keyword? with
        | none => rfl
        | some keyword =>
            simp only [Option.bind_eq_bind, Option.bind_some]
            cases BlockKind.openedBy? keyword with
            | some kind => cases rest.isEmpty <;> rfl
            | none =>
                cases BlockKind.closedBy? keyword with
                | none => rfl
                | some kind => cases rest.isEmpty <;> rfl
  rw [blockLine, blockLine, hmark]
  cases BlockMark.ofTokens? tokens with
  | none => rfl
  | some entry =>
      obtain ⟨mark, column⟩ := entry
      have htake := BlockStep.take_relabelled labels stack ⟨number, column⟩ mark
      simp only [Option.map_some]
      rw [Position.relabelled] at htake
      rw [htake]

end Blocks

/-! #### Names -/

section Names

variable (hlabels : labels.Faithful catalogue)

include hlabels

namespace Scope

lemma declares_relabelled (scope : Scope) (name : List Char) :
    (scope.relabelled labels).declares (labels.name name) = scope.declares name :=
  hlabels.contains_map _ _

lemma uses_relabelled (scope : Scope) (name : List Char) :
    (scope.relabelled labels).uses (labels.name name) = scope.uses name :=
  hlabels.contains_map _ _

lemma declare_relabelled (scope : Scope) (name : List Char) :
    (scope.relabelled labels).declare (labels.name name) =
      (scope.declare name).relabelled labels := by
  rw [declare, declare, declares_relabelled hlabels]
  split_ifs <;> rfl

lemma declareHead_relabelled (hf : labels.Relabels number f) (scope : Scope)
    (tokens : List Token) :
    (scope.relabelled labels).declareHead (tokens.map f) =
      (scope.declareHead tokens).relabelled labels := by
  rw [declareHead, declareHead, headNames_map hf.kind tokens hf.name]
  induction headNames tokens generalizing scope with
  | nil => rfl
  | cons name rest ih =>
      rw [List.map_cons, List.foldl_cons, List.foldl_cons, declare_relabelled hlabels]
      exact ih (scope.declare name)

lemma declareVariable_relabelled (scope : Scope) (name : List Char) (place : Position) :
    (scope.relabelled labels).declareVariable (labels.name name) (place.relabelled labels) =
      ((scope.declareVariable name place).1.relabelled labels,
        (scope.declareVariable name place).2.map (Finding.relabelled labels)) := by
  rw [declareVariable, declareVariable, declares_relabelled hlabels]
  split_ifs
  · simp [Finding.relabelled, Problem.relabelled, Relabelling.text]
  · rfl

lemma recordUse_relabelled (scope : Scope) (name : List Char) (place : Position) :
    (scope.relabelled labels).recordUse catalogue (labels.name name) (place.relabelled labels) =
      ((scope.recordUse catalogue name place).1.relabelled labels,
        (scope.recordUse catalogue name place).2.map (Finding.relabelled labels)) := by
  have hnext : (if (scope.relabelled labels).uses (labels.name name) then scope.relabelled labels
      else { scope.relabelled labels with
        used := labels.name name :: (scope.relabelled labels).used }) =
        (if scope.uses name then scope
          else { scope with used := name :: scope.used }).relabelled labels := by
    rw [uses_relabelled hlabels]
    split_ifs <;> rfl
  simp only [recordUse, hlabels.contains, declares_relabelled hlabels, hlabels.isLiteral, hnext]
  split_ifs <;> simp [Finding.relabelled, Problem.relabelled, Relabelling.text]

/-- One identifier in its role. -/
lemma identifier_relabelled (hf : labels.Relabels number f) (scope : Scope) {site : Site}
    (hident : site.token.isIdentifier = true) (role : Role) :
    (scope.relabelled labels).identifier catalogue (labels.line number) (site.map f, role) =
      ((scope.identifier catalogue number (site, role)).1.relabelled labels,
        (scope.identifier catalogue number (site, role)).2.map (Finding.relabelled labels)) := by
  have hname : (site.map f).token.lexeme = labels.name site.token.lexeme :=
    hf.name _ (Token.isIdentifier_iff.mp hident)
  have hplace : (⟨labels.line number, (site.map f).token.column⟩ : Position) =
      Position.relabelled labels ⟨number, site.token.column⟩ :=
    congrArg (Position.mk _) (hf.column _)
  cases role with
  | varTarget =>
      simp only [identifier, hname, hplace, declareVariable_relabelled hlabels]
  | use => simp only [identifier, hname, hplace, recordUse_relabelled hlabels]
  | _ => rfl

/-- The identifiers of a line, one after the other. -/
lemma identifiers_relabelled (hf : labels.Relabels number f) (scope : Scope)
    {roles : List (Site × Role)} (hident : ∀ entry ∈ roles, entry.1.token.isIdentifier = true) :
    (scope.relabelled labels).identifiers catalogue (labels.line number)
        (roles.map fun entry => (entry.1.map f, entry.2)) =
      ((scope.identifiers catalogue number roles).1.relabelled labels,
        (scope.identifiers catalogue number roles).2.map (Finding.relabelled labels)) := by
  induction roles generalizing scope with
  | nil => rfl
  | cons first rest ih =>
      obtain ⟨site, role⟩ := first
      have hfirst := identifier_relabelled hlabels hf scope (hident _ List.mem_cons_self) role
      have hrest := fun next => ih next fun entry hmem =>
        hident entry (List.mem_cons_of_mem _ hmem)
      simp only [List.map_cons, identifiers, hfirst, hrest, List.map_append]

lemma line_relabelled (hf : labels.Relabels number f) (scope : Scope) (tokens : List Token) :
    (scope.relabelled labels).line catalogue (labels.line number) (tokens.map f) =
      ((scope.line catalogue number tokens).1.relabelled labels,
        (scope.line catalogue number tokens).2.map (Finding.relabelled labels)) := by
  have hident : ∀ entry ∈ identifierRoles tokens, entry.1.token.isIdentifier = true := by
    intro entry hentry
    obtain ⟨site, hsite, rfl⟩ := List.mem_map.mp hentry
    exact (List.mem_filter.mp hsite).2
  rw [line, line, declareHead_relabelled hlabels hf, identifierRoles_map hf.kind,
    identifiers_relabelled hlabels hf _ hident]

lemma unusedFindings_relabelled (scope : Scope) :
    (scope.relabelled labels).unusedFindings =
      scope.unusedFindings.map (Finding.relabelled labels) := by
  have huses : (fun entry : Variable => !(scope.relabelled labels).uses entry.name) ∘
      Variable.relabelled labels = fun entry => !scope.uses entry.name :=
    funext fun entry => congrArg (!·) (uses_relabelled hlabels scope entry.name)
  have hintroduced : (scope.relabelled labels).introduced =
      scope.introduced.map (Variable.relabelled labels) := rfl
  rw [unusedFindings, unusedFindings, hintroduced, ← List.map_reverse, List.filter_map, huses,
    List.map_map, List.map_map]
  refine List.map_congr_left fun entry _ => ?_
  simp [Finding.relabelled, Problem.relabelled, Relabelling.text, Variable.relabelled]

end Scope

namespace Functions

omit hlabels in
lemma define_relabelled (hf : labels.Relabels number f) (functions : Functions)
    (tokens : List Token) :
    (functions.relabelled labels).define (tokens.map f) =
      (functions.define tokens).relabelled labels := by
  rw [define, define, FunctionHeader.ofTokens?_map hf.kind]
  cases hheader : FunctionHeader.ofTokens? tokens with
  | none => rfl
  | some header =>
      have hname : header.name.kind = .identifier := FunctionHeader.name_kind hheader
      simp [FunctionHeader.map, relabelled, hf.name _ hname]

lemma knows_relabelled (functions : Functions) (name : List Char) :
    (functions.relabelled labels).knows catalogue (labels.name name) =
      functions.knows catalogue name := by
  rw [knows, knows, hlabels.reserves]
  exact congrArg _ (hlabels.contains_map _ _)

lemma unknownFindings_relabelled (hf : labels.Relabels number f) (functions : Functions)
    (tokens : List Token) :
    (functions.relabelled labels).unknownFindings catalogue (labels.line number) (tokens.map f) =
      (functions.unknownFindings catalogue number tokens).map (Finding.relabelled labels) := by
  have hname : ∀ call ∈ calls tokens, (f call).lexeme = labels.name call.lexeme := by
    intro call hcall
    obtain ⟨site, hsite, rfl⟩ := List.mem_map.mp hcall
    obtain ⟨hmem, hcalled⟩ := List.mem_filter.mp hsite
    exact hf.name _ ((kindAt_site_iff hmem).mp ((isCall_iff hmem).mp hcalled).1)
  rw [unknownFindings, unknownFindings, calls_map hf.kind, List.filter_map, List.map_map,
    List.map_map]
  have hfilter : (calls tokens).filter
      ((fun call => !(functions.relabelled labels).knows catalogue call.lexeme) ∘ f) =
        (calls tokens).filter fun call => !functions.knows catalogue call.lexeme := by
    refine List.filter_congr fun call hcall => ?_
    rw [Function.comp_apply, hname call hcall, knows_relabelled hlabels]
  rw [hfilter]
  refine List.map_congr_left fun call hcall => ?_
  have hlexeme := hname call (List.mem_of_mem_filter hcall)
  simp [Finding.relabelled, Problem.relabelled, Relabelling.text, Position.relabelled,
    Token.name, hlexeme, hf.column]

end Functions

/-! #### All checks -/

/-- **One line**: each check takes a relabelled line as it takes the line, and says the same of
it under the new labels. -/
theorem Checker.line_relabelled (hf : labels.Relabels number f) (checker : Checker)
    (tokens : List Token) :
    ((checker.relabelled labels).line catalogue (labels.line number) (tokens.map f)).1 =
        (checker.line catalogue number tokens).1.relabelled labels ∧
      ((checker.relabelled labels).line catalogue (labels.line number)
          (tokens.map f)).2.findings =
        (checker.line catalogue number tokens).2.findings.map (Finding.relabelled labels) := by
  cases checker with
  | lineShape => exact ⟨rfl, lineShapeFindings_relabelled hf tokens⟩
  | blocks stack =>
      simp only [relabelled, line, blockLine_relabelled hf]
      refine ⟨trivial, ?_⟩
      cases (blockLine stack number tokens).2 with
      | none => rfl
      | some step =>
          simp only [Option.map_some, Option.bind_some, BlockStep.finding?_relabelled,
            Option.toList_map]
  | declarations scope => simp [relabelled, line, Scope.line_relabelled hlabels hf]
  | calls functions =>
      simp [relabelled, line, Functions.line, Functions.define_relabelled hf,
        Functions.unknownFindings_relabelled hlabels hf, endlessFindings_relabelled hf _ hlabels.sameTrue]

/-- The end of the script for one check. -/
lemma Checker.finish_relabelled (checker : Checker) :
    (checker.relabelled labels).finish.2 =
      checker.finish.2.map (Finding.relabelled labels) := by
  cases checker with
  | lineShape => rfl
  | blocks stack =>
      simp only [relabelled, finish, unclosedFindings, ← List.map_reverse, List.map_map]
      exact List.map_congr_left fun frame _ => rfl
  | declarations scope => exact Scope.unusedFindings_relabelled hlabels scope
  | calls functions => rfl

end Names

end Line

/-! ### Scripts -/

/-- The line under new labels; a map for each line puts them on its tokens. -/
def TokenLine.relabelled (labels : Relabelling) (f : Nat → Token → Token) (line : TokenLine) :
    TokenLine :=
  ⟨labels.line line.number, line.tokens.map (f line.number)⟩

/-- The new issue tells, under new labels, what the old one tells. -/
def Issue.Relabelled (labels : Relabelling) (old new : Issue) : Prop :=
  ∃ finding, old = Issue.ofFinding finding ∧ new = Issue.ofFinding (finding.relabelled labels)

/-- There is only one issue that tells it. -/
lemma Issue.Relabelled.unique {labels : Relabelling} {old new other : Issue}
    (h : old.Relabelled labels new) (hother : old.Relabelled labels other) : new = other := by
  obtain ⟨finding, hold, rfl⟩ := h
  obtain ⟨same, hsame, rfl⟩ := hother
  rw [Issue.ofFinding_injective (hold.symm.trans hsame)]

/-- The new verdict tells, under new labels, what the old one tells: the same issues in the
same order, and nothing else is different. -/
structure Verdict.Relabelled (labels : Relabelling) (old new : Verdict) : Prop where
  isValid : new.isValid = old.isValid
  errors : List.Forall₂ (Issue.Relabelled labels) old.errors new.errors
  warnings : List.Forall₂ (Issue.Relabelled labels) old.warnings new.warnings
  suggestions : new.suggestions = old.suggestions
  performance : new.performance = old.performance

section Scripts

variable {catalogue : Catalogue} {labels : Relabelling} {f : Nat → Token → Token}

section Findings

variable (hlabels : labels.Faithful catalogue) (hf : ∀ number, labels.Relabels number (f number))

include hlabels hf

/-- One line through several checks. -/
lemma lineAll_relabelled (checkers : List Checker) (number : Nat) (tokens : List Token) :
    (Checker.lineAll catalogue (labels.line number) (tokens.map (f number))
        (checkers.map (Checker.relabelled labels))).1 =
        (Checker.lineAll catalogue number tokens checkers).1.map (Checker.relabelled labels) ∧
      (Checker.lineAll catalogue (labels.line number) (tokens.map (f number))
          (checkers.map (Checker.relabelled labels))).2.findings =
        (Checker.lineAll catalogue number tokens checkers).2.findings.map
          (Finding.relabelled labels) := by
  induction checkers with
  | nil => exact ⟨rfl, rfl⟩
  | cons first rest ih =>
      obtain ⟨hchecker, hfindings⟩ := first.line_relabelled hlabels (hf number) tokens
      simp only [List.map_cons, Checker.lineAll, Notes.append, hchecker, hfindings, ih.1, ih.2,
        List.map_append, and_self]

/-- **The lines of a script.** -/
theorem overLines_relabelled (checkers : List Checker) (lines : List TokenLine) :
    (overLines catalogue (checkers.map (Checker.relabelled labels))
        (lines.map (TokenLine.relabelled labels f))).1 =
        (overLines catalogue checkers lines).1.map (Checker.relabelled labels) ∧
      (overLines catalogue (checkers.map (Checker.relabelled labels))
          (lines.map (TokenLine.relabelled labels f))).2.findings =
        (overLines catalogue checkers lines).2.findings.map (Finding.relabelled labels) := by
  induction lines generalizing checkers with
  | nil => exact ⟨rfl, rfl⟩
  | cons line rest ih =>
      obtain ⟨hcheckers, hfindings⟩ :=
        lineAll_relabelled hlabels hf checkers line.number line.tokens
      obtain ⟨hlast, hlater⟩ :=
        ih (Checker.lineAll catalogue line.number line.tokens checkers).1
      simp only [List.map_cons, overLines, TokenLine.relabelled, Notes.append, hcheckers,
        hfindings, List.map_append]
      exact ⟨hlast, congrArg (_ ++ ·) hlater⟩

/-- **The findings** on a relabelled script are the relabelled findings on the script. -/
theorem allFindings_relabelled (lines : List TokenLine) :
    allFindings catalogue (lines.map (TokenLine.relabelled labels f)) =
      (allFindings catalogue lines).map (Finding.relabelled labels) := by
  have hstart : Checker.standard.map (Checker.relabelled labels) = Checker.standard := rfl
  obtain ⟨hcheckers, hfindings⟩ := overLines_relabelled hlabels hf Checker.standard lines
  rw [hstart] at hcheckers hfindings
  simp only [allFindings, endFindings, hcheckers, hfindings, List.map_append, List.map_flatMap,
    List.flatMap_map, Checker.finish_relabelled hlabels]

end Findings

/-- No problem gets another code. -/
lemma Problem.code_relabelled (problem : Problem) :
    (problem.relabelled labels).code = problem.code := by
  cases problem <;> rfl

/-- The issues of some severity, under new labels. -/
lemma forall₂_issues_filter (test : Issue → Bool)
    (htest : ∀ finding : Finding,
      test (Issue.ofFinding (finding.relabelled labels)) = test (Issue.ofFinding finding))
    (findings : List Finding) :
    List.Forall₂ (Issue.Relabelled labels) ((findings.map Issue.ofFinding).filter test)
      (((findings.map (Finding.relabelled labels)).map Issue.ofFinding).filter test) := by
  induction findings with
  | nil => exact .nil
  | cons first rest ih =>
      simp only [List.map_cons, List.filter_cons, htest]
      split_ifs
      · exact .cons ⟨first, rfl, rfl⟩ ih
      · exact ih

/-- The estimate of the cost does not see labels. -/
lemma totalCost_relabelled {α : Type} [CostNumber α] (labels : Relabelling)
    (weights : Weights α) (hf : ∀ number, KeepsKinds (f number)) (lines : List TokenLine) :
    totalCost weights ((lines.map (TokenLine.relabelled labels f)).map TokenLine.tokens) =
      totalCost weights (lines.map TokenLine.tokens) := by
  rw [totalCost, totalCost, List.map_map, List.foldl_map, List.foldl_map]
  simp only [Function.comp_apply, TokenLine.relabelled, lineCost_map (hf _)]

/-- **The verdict** on a relabelled script tells the same under the new labels. -/
theorem verdictOn_relabelled (settings : Settings) (hlabels : labels.Faithful settings.catalogue)
    (hf : ∀ number, labels.Relabels number (f number)) (lines : List TokenLine) :
    (verdictOn settings lines).Relabelled labels
      (verdictOn settings (lines.map (TokenLine.relabelled labels f))) := by
  have hfindings := allFindings_relabelled hlabels hf lines
  have hcost := totalCost_relabelled labels settings.weights
    (fun number => (hf number).kind) lines
  have herror : ∀ finding : Finding, (Issue.ofFinding (finding.relabelled labels)).isError =
      (Issue.ofFinding finding).isError := fun finding =>
    congrArg (fun code : IssueCode => code.severity == .error)
      (Problem.code_relabelled finding.problem)
  have herrors := forall₂_issues_filter Issue.isError herror
    (allFindings settings.catalogue lines)
  have hwarnings := forall₂_issues_filter (fun issue => !issue.isError)
    (fun finding => congrArg (!·) (herror finding)) (allFindings settings.catalogue lines)
  rw [verdictOn, verdictOn, hfindings, hcost]
  refine ⟨?_, herrors, hwarnings, rfl, rfl⟩
  simp only [Verdict.ofIssues]
  rw [Bool.eq_iff_iff, List.isEmpty_iff_length_eq_zero, List.isEmpty_iff_length_eq_zero,
    herrors.length_eq]

end Scripts

/-! ### The same labels -/

/-- A finding tells the same under its own labels. -/
lemma Finding.relabelled_same (finding : Finding) : finding.relabelled .same = finding := by
  obtain ⟨place, problem⟩ := finding
  cases problem <;>
    simp [relabelled, Problem.relabelled, Position.relabelled, Relabelling.text, Relabelling.same]

/-- So does an issue. -/
lemma Issue.Relabelled.eq_of_same {old new : Issue} (h : old.Relabelled .same new) : new = old := by
  obtain ⟨finding, rfl, rfl⟩ := h
  rw [finding.relabelled_same]

/-- So does a verdict. -/
lemma Verdict.Relabelled.eq_of_same {old new : Verdict} (h : old.Relabelled .same new) :
    new = old := by
  have heq : ∀ {old new : List Issue}, List.Forall₂ (Issue.Relabelled .same) old new →
      new = old := by
    intro old new hissues
    induction hissues with
    | nil => rfl
    | cons hissue _ ih => rw [Issue.Relabelled.eq_of_same hissue, ih]
  obtain ⟨hvalid, herrors, hwarnings, hsuggestions, hperformance⟩ := h
  cases old
  cases new
  rw [Verdict.mk.injEq]
  exact ⟨hvalid, heq herrors, heq hwarnings, hsuggestions, hperformance⟩

end ScriptLint
