import Mathlib
import ScriptLint.Proofs.Names.Uses

/-!
The declarations and the uses of variables in a script, accounted for one by one.

* `Occurrence`, `occurrences`: the tokens of a script in order, each with what stands
  before it. Each token of each line occurs once (`mem_occurrences_iff`), and the
  occurrences come in reading order (`pairwise_occurrences`).
* `Occurrence.Redeclares`, `Occurrence.Introduces`, `Occurrence.IsUndeclared`: what an
  occurrence does, in terms of the declarations before it.
* `declarations_findings_eq`: the check of variables goes through the occurrences in order
  and says of each what `Occurrence.finding?` gives for it.
* `introduced_afterLines_eq`: the variables that are kept for the end of the script are
  the occurrences that introduce one.
* `undeclared_issues_eq`, `variables_accounted`: the issues on a script by their codes.
-/

namespace ScriptLint

/-! ### The tokens of a script -/

/-- A token of a script with what stands before it. -/
structure Occurrence where
  /-- The lines before the line of the token. -/
  before : List TokenLine
  line : TokenLine
  /-- How many tokens of the line stand before it. -/
  index : Nat
  token : Token
deriving DecidableEq, Repr

namespace Occurrence

/-- The place of the token in the script. -/
def place (occurrence : Occurrence) : Position :=
  ⟨occurrence.line.number, occurrence.token.column⟩

/-- The tokens of a line that follows other lines. -/
def onLine (before : List TokenLine) (line : TokenLine) : List Occurrence :=
  line.tokens.zipIdx.map fun (token, index) => ⟨before, line, index, token⟩

/-- The tokens of the lines that follow other lines. -/
def onLines (before : List TokenLine) : List TokenLine → List Occurrence
  | [] => []
  | line :: rest => onLine before line ++ onLines (before ++ [line]) rest

/-- The one token stands before the other, on an earlier line or on the left. -/
def Precedes (a b : Occurrence) : Prop :=
  a.line ∈ b.before ∨ (a.before = b.before ∧ a.line = b.line ∧ a.index < b.index)

end Occurrence

/-- The tokens of a script, in order. -/
def occurrences (lines : List TokenLine) : List Occurrence :=
  Occurrence.onLines [] lines

section Occurrences

variable {lines before : List TokenLine} {line : TokenLine} {occurrence : Occurrence}

lemma Occurrence.mem_onLine_iff :
    occurrence ∈ onLine before line ↔
      occurrence.before = before ∧ occurrence.line = line ∧
        line.tokens[occurrence.index]? = some occurrence.token := by
  rw [onLine, List.mem_map]
  constructor
  · rintro ⟨⟨token, index⟩, hmem, rfl⟩
    exact ⟨rfl, rfl, List.mem_zipIdx_iff_getElem?.mp hmem⟩
  · obtain ⟨_, _, index, token⟩ := occurrence
    rintro ⟨rfl, rfl, htoken⟩
    exact ⟨(token, index), List.mem_zipIdx_iff_getElem?.mpr htoken, rfl⟩

/-- The tokens of lines that follow other lines, by the lines in between. -/
lemma Occurrence.mem_onLines_iff :
    occurrence ∈ onLines before lines ↔
      ∃ between, occurrence.before = before ++ between ∧
        LineAfter lines between occurrence.line ∧
          occurrence.line.tokens[occurrence.index]? = some occurrence.token := by
  induction lines generalizing before with
  | nil => simp [onLines]
  | cons first rest ih =>
      rw [onLines, List.mem_append, mem_onLine_iff, ih]
      simp only [lineAfter_cons]
      constructor
      · rintro (⟨hbefore, hline, htoken⟩ | ⟨between, hbefore, hafter, htoken⟩)
        · exact ⟨[], by rw [hbefore, List.append_nil], .inl ⟨rfl, hline⟩, hline ▸ htoken⟩
        · exact ⟨first :: between, by rw [hbefore, List.append_assoc, List.singleton_append],
            .inr ⟨between, rfl, hafter⟩, htoken⟩
      · rintro ⟨between, hbefore, ⟨rfl, hline⟩ | ⟨early, rfl, hafter⟩, htoken⟩
        · exact .inl ⟨by rw [hbefore, List.append_nil], hline, hline ▸ htoken⟩
        · exact .inr ⟨early, by rw [hbefore, List.append_assoc, List.singleton_append],
            hafter, htoken⟩

/-- The occurrences of a script are the tokens of its lines. -/
theorem mem_occurrences_iff :
    occurrence ∈ occurrences lines ↔
      LineAfter lines occurrence.before occurrence.line ∧
        occurrence.line.tokens[occurrence.index]? = some occurrence.token := by
  rw [occurrences, Occurrence.mem_onLines_iff]
  simp

/-- The occurrences of a script come in reading order. -/
theorem pairwise_occurrences (lines : List TokenLine) :
    (occurrences lines).Pairwise Occurrence.Precedes := by
  have hlines : ∀ before, (Occurrence.onLines before lines).Pairwise Occurrence.Precedes := by
    induction lines with
    | nil => exact fun _ => .nil
    | cons line rest ih =>
        intro before
        rw [Occurrence.onLines, List.pairwise_append]
        refine ⟨?_, ih _, fun a ha b hb => .inl ?_⟩
        · have hsorted : line.tokens.zipIdx.Pairwise fun a b => a.2 < b.2 := by
            rw [← List.pairwise_map, List.zipIdx_map_snd]
            exact List.pairwise_lt_range'
          rw [Occurrence.onLine, List.pairwise_map]
          exact hsorted.imp fun h => .inr ⟨rfl, rfl, h⟩
        · obtain ⟨_, rfl, _⟩ := Occurrence.mem_onLine_iff.mp ha
          obtain ⟨between, hbefore, _⟩ := Occurrence.mem_onLines_iff.mp hb
          rw [hbefore]
          simp
  exact hlines []

end Occurrences

/-! ### What occurrences do -/

namespace Occurrence

variable (catalogue : Catalogue) (occurrence : Occurrence)

/-- The name is declared before the occurrence: on an earlier line, in the head of its own
line, or by `var` on the left. -/
def Known : Prop :=
  DeclaredBefore occurrence.before occurrence.line.tokens occurrence.index
    occurrence.token.lexeme

/-- A target of `var` whose name is declared before. -/
def Redeclares : Prop :=
  VarTarget occurrence.line.tokens occurrence.index ∧ occurrence.Known

/-- A target of `var` that is the first declaration of its name. -/
def Introduces : Prop :=
  VarTarget occurrence.line.tokens occurrence.index ∧ ¬ occurrence.Known

/-- A use of a name that is neither built in nor a literal nor declared before. -/
@[mk_iff]
structure IsUndeclared : Prop where
  used : VariableUse occurrence.line.tokens occurrence.index
  not_builtin : catalogue.contains occurrence.token.lexeme = false
  not_literal : Builtin.isLiteral occurrence.token.lexeme = false
  unknown : ¬ occurrence.Known

/-- The finding that tells a problem with the name of the token, at the token. -/
def finding (problem : String → Problem) : Finding :=
  ⟨occurrence.place, problem occurrence.token.name⟩

/-- The variable that a target of `var` declares. -/
def declared : Variable :=
  ⟨occurrence.token.lexeme, occurrence.place⟩

open scoped Classical in
/-- What the check of variables says when it comes to the token. -/
noncomputable def finding? : Option Finding :=
  if occurrence.Redeclares then some (occurrence.finding .redeclared)
  else if occurrence.IsUndeclared catalogue then some (occurrence.finding .undeclared)
  else none

open scoped Classical in
/-- The variable that is kept for the end of the script. -/
noncomputable def introduced? : Option Variable :=
  if occurrence.Introduces then some occurrence.declared else none

end Occurrence

/-! ### Identifiers one by one -/

namespace Scope

section Identifiers

variable {catalogue : Catalogue} {scope : Scope} {number : Nat} {roles : List (Site × Role)}

/-- Several identifiers say in order what each of them says after the ones before it. -/
lemma identifiers_findings_eq {told : Site × Role → Option Finding}
    (h : ∀ early entry late, roles = early ++ entry :: late →
      ((scope.identifiers catalogue number early).1.identifier catalogue number entry).2 =
        (told entry).toList) :
    (scope.identifiers catalogue number roles).2 = roles.filterMap told := by
  induction roles generalizing scope with
  | nil => rfl
  | cons first rest ih =>
      have hfirst : (scope.identifier catalogue number first).2 = (told first).toList :=
        h [] first rest rfl
      have hrest : ((scope.identifier catalogue number first).1.identifiers catalogue number
          rest).2 = rest.filterMap told :=
        ih fun early entry late hsplit =>
          h (first :: early) entry late (by rw [hsplit, List.cons_append])
      rw [List.filterMap_eq_flatMap_toList] at hrest ⊢
      rw [identifiers, List.flatMap_cons, ← hfirst, ← hrest]

/-- Several identifiers keep in order what each of them keeps after the ones before it. -/
lemma identifiers_introduced_eq {kept : Site × Role → Option Variable}
    (h : ∀ early entry late, roles = early ++ entry :: late →
      ((scope.identifiers catalogue number early).1.identifier catalogue number
        entry).1.introduced =
          (kept entry).toList ++ (scope.identifiers catalogue number early).1.introduced) :
    (scope.identifiers catalogue number roles).1.introduced.reverse =
      scope.introduced.reverse ++ roles.filterMap kept := by
  induction roles generalizing scope with
  | nil => rw [identifiers, List.filterMap_nil, List.append_nil]
  | cons first rest ih =>
      have hfirst : (scope.identifier catalogue number first).1.introduced =
          (kept first).toList ++ scope.introduced := h [] first rest rfl
      have hrest : ((scope.identifier catalogue number first).1.identifiers catalogue number
          rest).1.introduced.reverse =
            (scope.identifier catalogue number first).1.introduced.reverse ++
              rest.filterMap kept :=
        ih fun early entry late hsplit =>
          h (first :: early) entry late (by rw [hsplit, List.cons_append])
      have hsingle : (kept first).toList.reverse = (kept first).toList := by
        cases kept first <;> rfl
      rw [hfirst, List.reverse_append, hsingle, List.append_assoc] at hrest
      rw [List.filterMap_eq_flatMap_toList] at hrest ⊢
      rw [List.flatMap_cons, ← hrest]
      rfl

end Identifiers

end Scope

/-! ### The tokens of a line -/

/-- The tokens of a line with their indices are its sites. -/
lemma zipIdx_eq_map_ofTokens (tokens : List Token) :
    tokens.zipIdx = (Site.ofTokens tokens).map fun site => (site.token, site.index) := by
  have hfrom : ∀ start before?, tokens.zipIdx start =
      (Site.ofTokensFrom start before? tokens).map fun site => (site.token, site.index) := by
    induction tokens with
    | nil => exact fun _ _ => rfl
    | cons token rest ih =>
        intro start before?
        rw [List.zipIdx_cons, ih (start + 1) (some token), Site.ofTokensFrom, List.map_cons]
  exact hfrom 0 none

section Line

variable {catalogue : Catalogue} {before : List TokenLine} {line : TokenLine}

/-- What only identifiers have is found among the identifiers of a line. -/
lemma filterMap_onLine {α : Type} {found? : Occurrence → Option α}
    (h : ∀ occurrence : Occurrence, (found? occurrence).isSome →
      KindAt occurrence.line.tokens occurrence.index .identifier) :
    (Occurrence.onLine before line).filterMap found? =
      (identifierRoles line.tokens).filterMap fun entry =>
        found? ⟨before, line, entry.1.index, entry.1.token⟩ := by
  rw [Occurrence.onLine, zipIdx_eq_map_ofTokens, identifierRoles, List.filterMap_map,
    List.filterMap_map, List.filterMap_map, List.filterMap_filter]
  refine List.filterMap_congr fun site hsite => ?_
  cases hident : site.token.isIdentifier with
  | true => rfl
  | false =>
      rw [if_neg Bool.false_ne_true, ← Option.not_isSome_iff_eq_none]
      intro hfound
      have hkind : site.token.kind = .identifier :=
        (kindAt_site_iff hsite).mp (h _ hfound)
      rw [Token.isIdentifier_iff.mpr hkind] at hident
      cases hident

section Entry

variable {early late : List (Site × Role)} {site : Site} {role : Role}
  (h : identifierRoles line.tokens = early ++ (site, role) :: late)

include h

/-- The role of an identifier of a line tells what stands at its index. -/
lemma role_iff_of_split :
    (role = .varTarget ↔ VarTarget line.tokens site.index) ∧
      (role = .use ↔ VariableUse line.tokens site.index) := by
  obtain ⟨hsite, hident, rfl⟩ : site ∈ Site.ofTokens line.tokens ∧
      site.token.isIdentifier = true ∧ site.role line.tokens = role := by
    rw [← Scope.mem_identifierRoles_iff, h]
    exact List.mem_append_right _ List.mem_cons_self
  exact ⟨role_eq_varTarget_iff hsite hident, role_eq_use_iff hsite hident⟩

/-- What is declared when the check comes to an identifier is what is declared before it. -/
lemma known_iff_of_split (catalogue : Catalogue) (before : List TokenLine) :
    site.token.lexeme ∈
        (((Scope.empty.afterLines catalogue before).declareHead line.tokens).identifiers
          catalogue line.number early).1.declared ↔
      (Occurrence.mk before line site.index site.token).Known := by
  rw [Scope.mem_declared_early h, Occurrence.Known, Scope.declaredBefore_iff catalogue]

end Entry

/-- The check says of the tokens of a line, in order, what `Occurrence.finding?` gives. -/
lemma line_findings_eq (catalogue : Catalogue) (before : List TokenLine) (line : TokenLine) :
    ((Scope.empty.afterLines catalogue before).line catalogue line.number line.tokens).2 =
      (Occurrence.onLine before line).filterMap (Occurrence.finding? catalogue) := by
  rw [filterMap_onLine, Scope.line]
  · refine Scope.identifiers_findings_eq fun early entry late hsplit => ?_
    obtain ⟨site, role⟩ := entry
    have hknown := known_iff_of_split hsplit catalogue before
    obtain ⟨htarget, huse⟩ := role_iff_of_split hsplit
    have hredeclares := and_congr htarget hknown
    have hundeclared : (role = .use ∧ catalogue.contains site.token.lexeme = false ∧
        Builtin.isLiteral site.token.lexeme = false ∧ site.token.lexeme ∉
          (((Scope.empty.afterLines catalogue before).declareHead line.tokens).identifiers
            catalogue line.number early).1.declared) ↔
        (Occurrence.mk before line site.index site.token).IsUndeclared catalogue := by
      rw [huse, hknown, Occurrence.isUndeclared_iff]
    rw [Scope.identifier_findings_eq, Occurrence.finding?]
    by_cases hr : (Occurrence.mk before line site.index site.token).Redeclares
    · rw [if_pos (hredeclares.mpr hr), if_pos hr]
      rfl
    · rw [if_neg (mt hredeclares.mp hr), if_neg hr]
      by_cases hu : (Occurrence.mk before line site.index site.token).IsUndeclared catalogue
      · rw [if_pos (hundeclared.mpr hu), if_pos hu]
        rfl
      · rw [if_neg (mt hundeclared.mp hu), if_neg hu]
        rfl
  · intro occurrence hfound
    rw [Occurrence.finding?] at hfound
    split_ifs at hfound with hr hu
    · exact hr.1.1
    · exact hu.used.identifier
    · cases hfound

/-- The check keeps of the tokens of a line, in order, what `Occurrence.introduced?`
gives. -/
lemma line_introduced_eq (catalogue : Catalogue) (before : List TokenLine)
    (line : TokenLine) :
    ((Scope.empty.afterLines catalogue before).line catalogue line.number
        line.tokens).1.introduced.reverse =
      (Scope.empty.afterLines catalogue before).introduced.reverse ++
        (Occurrence.onLine before line).filterMap Occurrence.introduced? := by
  rw [filterMap_onLine, Scope.line]
  · conv_rhs => rw [← @Scope.introduced_declareHead _ line.tokens]
    refine Scope.identifiers_introduced_eq fun early entry late hsplit => ?_
    obtain ⟨site, role⟩ := entry
    have hintroduces := and_congr (role_iff_of_split hsplit).1
      (not_congr (known_iff_of_split hsplit catalogue before))
    rw [Scope.identifier_introduced_eq, Occurrence.introduced?]
    by_cases hi : (Occurrence.mk before line site.index site.token).Introduces
    · rw [if_pos (hintroduces.mpr hi), if_pos hi]
      rfl
    · rw [if_neg (mt hintroduces.mp hi), if_neg hi]
      rfl
  · intro occurrence hfound
    rw [Occurrence.introduced?] at hfound
    split_ifs at hfound with hi
    · exact hi.1.1
    · cases hfound

end Line

/-! ### The lines of a script -/

section Script

variable (catalogue : Catalogue) (lines : List TokenLine)

lemma Scope.afterLines_append {catalogue : Catalogue} {scope : Scope}
    (early late : List TokenLine) :
    scope.afterLines catalogue (early ++ late) =
      (scope.afterLines catalogue early).afterLines catalogue late := by
  induction early generalizing scope with
  | nil => rfl
  | cons line rest ih => exact ih

/-- **Findings on names**: on the lines of a script, the check of variables says in order
what `Occurrence.finding?` gives for each token. -/
theorem declarations_findings_eq :
    (Checker.declarations Scope.empty).findings catalogue (lines.map .line) =
      (occurrences lines).filterMap (Occurrence.finding? catalogue) := by
  have hrun : ∀ before,
      (Checker.declarations (Scope.empty.afterLines catalogue before)).findings catalogue
        (lines.map .line) =
          (Occurrence.onLines before lines).filterMap (Occurrence.finding? catalogue) := by
    induction lines with
    | nil => exact fun _ => rfl
    | cons line rest ih =>
        intro before
        have hnext := ih (before ++ [line])
        rw [Scope.afterLines_append] at hnext
        rw [List.map_cons, Checker.findings_cons, Occurrence.onLines, List.filterMap_append,
          ← hnext, ← line_findings_eq]
        rfl
  exact hrun []

/-- **Variables kept**: a script introduces, in order, the variables that
`Occurrence.introduced?` gives for its tokens. -/
theorem introduced_afterLines_eq :
    (Scope.empty.afterLines catalogue lines).introduced.reverse =
      (occurrences lines).filterMap Occurrence.introduced? := by
  have hrun : ∀ before,
      ((Scope.empty.afterLines catalogue before).afterLines catalogue
        lines).introduced.reverse =
          (Scope.empty.afterLines catalogue before).introduced.reverse ++
            (Occurrence.onLines before lines).filterMap Occurrence.introduced? := by
    induction lines with
    | nil => exact fun _ => (List.append_nil _).symm
    | cons line rest ih =>
        intro before
        have hnext := ih (before ++ [line])
        rw [Scope.afterLines_append] at hnext
        rw [Occurrence.onLines, List.filterMap_append, ← List.append_assoc,
          ← line_introduced_eq]
        exact hnext
  exact hrun []

end Script

/-! ### Uses and declarations on the whole script -/

/-- Somewhere in the script the name is used and the use is recorded: it is not built
in. -/
def UseRecorded (catalogue : Catalogue) (lines : List TokenLine) (name : List Char) : Prop :=
  catalogue.contains name = false ∧ ∃ line ∈ lines, UsesName line.tokens name

/-- An earlier target of `var` declares its name before a later token. -/
lemma Occurrence.known_of_precedes {lines : List TokenLine} {a b : Occurrence}
    (ha : a ∈ occurrences lines) (htarget : VarTarget a.line.tokens a.index)
    (hname : a.token.lexeme = b.token.lexeme) (h : a.Precedes b) : b.Known := by
  have hspelled : SpelledAt a.line.tokens a.index b.token.lexeme :=
    ⟨a.token, (mem_occurrences_iff.mp ha).2, hname⟩
  rcases h with hline | ⟨_, hline, hindex⟩
  · exact .inl ⟨a.line, hline, a.index, .inl htarget, hspelled⟩
  · rw [hline] at htarget hspelled
    exact .inr (.inr ⟨a.index, hindex, htarget, hspelled⟩)

/-- The scope at the end of a script knows the recorded uses. -/
lemma Scope.uses_afterLines_iff {catalogue : Catalogue} {lines : List TokenLine}
    {name : List Char} :
    (Scope.empty.afterLines catalogue lines).uses name = true ↔
      UseRecorded catalogue lines name := by
  rw [uses_iff, mem_used_afterLines, UseRecorded]
  simp [empty]

section Accounts

variable (catalogue : Catalogue) (lines : List TokenLine)

open scoped Classical in
/-- The issues of one code, if the occurrences of one sort are told with this code and no
others are. -/
lemma issues_filter_eq {code : IssueCode} {sort : Occurrence → Prop}
    {problem : String → Problem}
    (htold : ∀ occurrence, sort occurrence →
      occurrence.finding? catalogue = some (occurrence.finding problem))
    (hcode : ∀ name, (problem name).code = code)
    (hother : ∀ occurrence finding, ¬ sort occurrence →
      occurrence.finding? catalogue = some finding → finding.problem.code ≠ code) :
    (((Checker.declarations Scope.empty).findings catalogue (lines.map .line)).map
        Issue.ofFinding).filter (fun issue => issue.code = code) =
      ((occurrences lines).filter fun occurrence => sort occurrence).map
        fun occurrence => Issue.ofFinding (occurrence.finding problem) := by
  rw [declarations_findings_eq, List.map_filterMap, List.filter_filterMap,
    ← List.filterMap_eq_map, List.filterMap_filter]
  refine List.filterMap_congr fun occurrence _ => ?_
  by_cases hsort : sort occurrence
  · have hissue : (Issue.ofFinding (occurrence.finding problem)).code = code := hcode _
    simp [htold occurrence hsort, hsort, hissue, Option.filter]
  · cases hfinding : occurrence.finding? catalogue with
    | none => simp [hsort]
    | some finding =>
        have hissue : (Issue.ofFinding finding).code ≠ code :=
          hother occurrence finding hsort hfinding
        simp [hsort, hissue, Option.filter]

open scoped Classical in
/-- **Undeclared variables**: on the lines of a script, the check of variables tells an
undeclared variable once at each token that uses a name which is neither built in nor a
literal nor declared before, in order, and nowhere else. A name is declared after more lines
if it was before them or one of them declares it; neither the end of a block nor a use
changes that. -/
theorem undeclared_issues_eq :
    (((Checker.declarations Scope.empty).findings catalogue (lines.map .line)).map
        Issue.ofFinding).filter (fun issue => issue.code = .undeclaredVariable) =
      ((occurrences lines).filter fun occurrence => occurrence.IsUndeclared catalogue).map
        (fun occurrence => Issue.ofFinding (occurrence.finding .undeclared)) ∧
    ∀ (early late : List TokenLine) (name : List Char),
      name ∈ (Scope.empty.afterLines catalogue (early ++ late)).declared ↔
        name ∈ (Scope.empty.afterLines catalogue early).declared ∨
          ∃ line ∈ late, DeclaresName line.tokens name := by
  constructor
  · refine issues_filter_eq catalogue lines ?_ (fun _ => rfl) ?_
    · intro occurrence hundeclared
      rw [Occurrence.finding?, if_neg fun hr => hundeclared.unknown hr.2, if_pos hundeclared]
    · intro occurrence finding hundeclared hfinding
      rw [Occurrence.finding?] at hfinding
      split_ifs at hfinding with hr
      obtain rfl := Option.some.inj hfinding
      exact nofun
  · intro early late name
    rw [Scope.afterLines_append, Scope.mem_declared_afterLines]

open scoped Classical in
/-- What the check of variables says of the declarations by `var`. -/
structure VariablesAccounted : Prop where
  /-- A target of `var` whose name is declared before is told once, and nothing else is
  told to be redeclared. -/
  redeclared :
    (((Checker.declarations Scope.empty).findings catalogue (lines.map .line)).map
        Issue.ofFinding).filter (fun issue => issue.code = .redeclaredVariable) =
      ((occurrences lines).filter fun occurrence => occurrence.Redeclares).map
        fun occurrence => Issue.ofFinding (occurrence.finding .redeclared)
  /-- At the end of the script, a target of `var` that is the first declaration of its name
  is told if no use of the name is recorded, and nothing else is told. -/
  unused :
    ((Checker.declarations Scope.empty).after catalogue
        (lines.map .line)).finish.2.map Issue.ofFinding =
      ((occurrences lines).filter fun occurrence =>
        occurrence.Introduces ∧ ¬ UseRecorded catalogue lines occurrence.token.lexeme).map
          fun occurrence => Issue.ofFinding (occurrence.finding .unused)
  /-- No name has two first declarations. -/
  first_once :
    (((occurrences lines).filter fun occurrence => occurrence.Introduces).map
      fun occurrence => occurrence.token.lexeme).Nodup

/-- **Declarations by `var`**: each is the first declaration of its name or told to be a
redeclaration, and those told to be unused at the end of the script are the first
declarations of names without a recorded use, each once and in order. -/
theorem variables_accounted : VariablesAccounted catalogue lines where
  redeclared := by
    refine issues_filter_eq catalogue lines ?_ (fun _ => rfl) ?_
    · intro occurrence hredeclares
      rw [Occurrence.finding?, if_pos hredeclares]
    · intro occurrence finding hredeclares hfinding
      rw [Occurrence.finding?, if_neg hredeclares] at hfinding
      split_ifs at hfinding
      obtain rfl := Option.some.inj hfinding
      exact nofun
  unused := by
    rw [Scope.after_declarations, Checker.finish, Scope.unusedFindings,
      introduced_afterLines_eq, List.filter_filterMap, List.map_filterMap, List.map_filterMap,
      ← List.filterMap_eq_map, List.filterMap_filter]
    refine List.filterMap_congr fun occurrence _ => ?_
    by_cases hintroduces : occurrence.Introduces
    · by_cases hrecorded : UseRecorded catalogue lines occurrence.token.lexeme
      · have huses := Scope.uses_afterLines_iff.mpr hrecorded
        simp [Occurrence.introduced?, hintroduces, hrecorded, huses, Occurrence.declared,
          Option.filter]
      · have huses := Bool.eq_false_iff.mpr (mt Scope.uses_afterLines_iff.mp hrecorded)
        simp [Occurrence.introduced?, hintroduces, hrecorded, huses, Occurrence.declared,
          Option.filter, Occurrence.finding, Token.name]
    · simp [Occurrence.introduced?, hintroduces]
  first_once := by
    rw [List.Nodup, List.pairwise_map, List.pairwise_filter]
    refine (pairwise_occurrences lines).imp_of_mem ?_
    intro a b ha _ hprecedes hfirst hsecond hname
    have ha' : a.Introduces := by simpa using hfirst
    have hb' : b.Introduces := by simpa using hsecond
    exact hb'.2 (Occurrence.known_of_precedes ha ha'.1 hname hprecedes)

end Accounts

end ScriptLint
