import Mathlib
import ScriptLint.Proofs.Names.Occurrences
import ScriptLint.Proofs.Visits

/-!
What the check of variables knows and tells.

* `DeclaresName`: a line declares a name; `DeclaredOnLine`, `DeclaredBefore`: a
  name is declared before an occurrence, on its line or on an earlier one. The
  names in the head of a line come before everything on it.
* `Scope.mem_declared_line`, `Scope.mem_declared_afterLines`: the declared names
  after a line and after several lines.
* `NameProblem`, `Scope.mem_line_findings_iff`: the findings on a line, one by one.
* `Scope.mem_introduced_afterLines`: the variables that are kept for the end of
  the script, each at its first declaration.
* `mem_declarations_findings_iff`, `undeclared_mem_findings_iff`: the findings on
  a script, and the undeclared uses among them.
-/

namespace ScriptLint

/-! ### Declarations of names -/

/-- The line declares the name, by `var` or in its head. -/
def DeclaresName (tokens : List Token) (name : List Char) : Prop :=
  ∃ index, (VarTarget tokens index ∨ HeadTarget tokens index) ∧ SpelledAt tokens index name

/-- The name is declared on the line before the index: in the head of the line, or
by `var` on the left. -/
def DeclaredOnLine (tokens : List Token) (index : Nat) (name : List Char) : Prop :=
  (∃ target, HeadTarget tokens target ∧ SpelledAt tokens target name) ∨
    ∃ target < index, VarTarget tokens target ∧ SpelledAt tokens target name

/-- The name is declared before the index of the line that follows these lines. -/
def DeclaredBefore (before : List TokenLine) (tokens : List Token) (index : Nat)
    (name : List Char) : Prop :=
  (∃ line ∈ before, DeclaresName line.tokens name) ∨ DeclaredOnLine tokens index name

namespace Scope

variable {catalogue : Catalogue} {scope : Scope} {tokens : List Token} {name : List Char}
  {number : Nat} {site : Site} {role : Role} {roles : List (Site × Role)}
  {finding : Finding}

lemma declares_iff : scope.declares name = true ↔ name ∈ scope.declared := by
  rw [declares, List.contains_iff_mem]

/-! ### The identifiers of a line with their roles -/

lemma mem_identifierRoles_iff :
    (site, role) ∈ identifierRoles tokens ↔
      site ∈ Site.ofTokens tokens ∧ site.token.isIdentifier = true ∧
        site.role tokens = role := by
  simp only [identifierRoles, List.mem_map, List.mem_filter, Prod.mk.injEq]
  constructor
  · rintro ⟨_, ⟨hsite, hident⟩, rfl, rfl⟩
    exact ⟨hsite, hident, rfl⟩
  · rintro ⟨hsite, hident, rfl⟩
    exact ⟨site, ⟨hsite, hident⟩, rfl, rfl⟩

lemma pairwise_identifierRoles (tokens : List Token) :
    (identifierRoles tokens).Pairwise fun a b => a.1.index < b.1.index := by
  rw [identifierRoles, List.pairwise_map]
  exact (pairwise_ofTokens tokens).filter _

/-- An identifier of a line is at a site, which has its role. -/
lemma exists_identifier_site {index : Nat} {token : Token} (htoken : tokens[index]? = some token)
    (hkind : KindAt tokens index .identifier) :
    ∃ site ∈ Site.ofTokens tokens, site.token.isIdentifier = true ∧ site.index = index ∧
      site.token = token := by
  obtain ⟨site, hsite, rfl, rfl⟩ := exists_site htoken
  exact ⟨site, hsite, Token.isIdentifier_iff.mpr ((kindAt_site_iff hsite).mp hkind), rfl, rfl⟩

/-- The identifiers in a role are those at the indices that the role describes. -/
lemma exists_role_iff {p q : Nat → Prop}
    (hkind : ∀ index, q index → KindAt tokens index .identifier)
    (hrole : ∀ site ∈ Site.ofTokens tokens, site.token.isIdentifier = true →
      (site.role tokens = role ↔ q site.index)) :
    (∃ site, (site, role) ∈ identifierRoles tokens ∧ p site.index ∧
        site.token.lexeme = name) ↔
      ∃ index, p index ∧ q index ∧ SpelledAt tokens index name := by
  constructor
  · rintro ⟨site, hmem, hindex, rfl⟩
    obtain ⟨hsite, hident, heq⟩ := mem_identifierRoles_iff.mp hmem
    exact ⟨site.index, hindex, (hrole site hsite hident).mp heq, site.token,
      (mem_ofTokens_iff.mp hsite).1, rfl⟩
  · rintro ⟨index, hindex, hat, token, htoken, rfl⟩
    obtain ⟨site, hsite, hident, rfl, rfl⟩ := exists_identifier_site htoken (hkind index hat)
    exact ⟨site, mem_identifierRoles_iff.mpr ⟨hsite, hident, (hrole site hsite hident).mpr hat⟩,
      hindex, rfl⟩

/-- The targets of `var` are the identifiers in that role. -/
lemma exists_varTarget_iff {p : Nat → Prop} :
    (∃ site, (site, Role.varTarget) ∈ identifierRoles tokens ∧ p site.index ∧
        site.token.lexeme = name) ↔
      ∃ index, p index ∧ VarTarget tokens index ∧ SpelledAt tokens index name :=
  exists_role_iff (fun _ htarget => htarget.1) fun _ hsite hident =>
    role_eq_varTarget_iff hsite hident

/-- What stands before an entry of the roles has the smaller index. -/
lemma mem_early_iff {early late : List (Site × Role)} {entry other : Site × Role}
    (h : identifierRoles tokens = early ++ entry :: late) :
    other ∈ early ↔ other ∈ identifierRoles tokens ∧ other.1.index < entry.1.index := by
  have hsorted := pairwise_identifierRoles tokens
  rw [h] at hsorted ⊢
  obtain ⟨_, hlate, hearly⟩ := List.pairwise_append.mp hsorted
  constructor
  · intro hmem
    exact ⟨List.mem_append_left _ hmem, hearly other hmem entry (by simp)⟩
  · rintro ⟨hmem, hlt⟩
    rcases List.mem_append.mp hmem with hmem | hmem
    · exact hmem
    · rcases List.mem_cons.mp hmem with rfl | hmem
      · exact absurd hlt (lt_irrefl _)
      · have := (List.pairwise_cons.mp hlate).1 other hmem
        omega

/-- The targets of `var` on the left of an identifier. -/
lemma exists_varTarget_early_iff {early late : List (Site × Role)} {entry : Site × Role}
    (h : identifierRoles tokens = early ++ entry :: late) :
    (∃ site, (site, Role.varTarget) ∈ early ∧ site.token.lexeme = name) ↔
      ∃ target < entry.1.index, VarTarget tokens target ∧ SpelledAt tokens target name := by
  rw [← exists_varTarget_iff]
  refine exists_congr fun site => ?_
  rw [mem_early_iff h, and_assoc]

/-! ### The names declared so far -/

lemma mem_declared_declare {new : List Char} :
    name ∈ (scope.declare new).declared ↔ name ∈ scope.declared ∨ name = new := by
  rw [declare]
  split_ifs with h
  · refine ⟨.inl, ?_⟩
    rintro (hmem | rfl)
    · exact hmem
    · exact declares_iff.mp h
  · rw [List.mem_cons, or_comm]

lemma mem_declared_foldl_declare {news : List (List Char)} :
    name ∈ (news.foldl declare scope).declared ↔ name ∈ scope.declared ∨ name ∈ news := by
  induction news generalizing scope with
  | nil => simp
  | cons new rest ih =>
      rw [List.foldl_cons, ih, mem_declared_declare, List.mem_cons, or_assoc]

/-- Reading the head of a line only declares names. -/
lemma exists_declareHead_eq (scope : Scope) (tokens : List Token) :
    ∃ declared, scope.declareHead tokens = { scope with declared := declared } := by
  rw [declareHead]
  induction headNames tokens generalizing scope with
  | nil => exact ⟨scope.declared, rfl⟩
  | cons new rest ih =>
      obtain ⟨declared, hrest⟩ := ih (scope.declare new)
      refine ⟨declared, ?_⟩
      rw [List.foldl_cons, hrest, declare]
      split_ifs <;> rfl

/-- The head of a line introduces no variable. -/
@[simp] lemma introduced_declareHead :
    (scope.declareHead tokens).introduced = scope.introduced := by
  obtain ⟨declared, hhead⟩ := exists_declareHead_eq scope tokens
  rw [hhead]

/-- The head of a line uses no variable. -/
@[simp] lemma used_declareHead : (scope.declareHead tokens).used = scope.used := by
  obtain ⟨declared, hhead⟩ := exists_declareHead_eq scope tokens
  rw [hhead]

/-- Once the head of a line is read, its names are declared. -/
lemma mem_declared_declareHead :
    name ∈ (scope.declareHead tokens).declared ↔ name ∈ scope.declared ∨
      ∃ target, HeadTarget tokens target ∧ SpelledAt tokens target name := by
  rw [declareHead, mem_declared_foldl_declare, mem_headNames_iff]

/-- One identifier declares its name if it is a target of `var`. -/
lemma mem_declared_identifier :
    name ∈ (scope.identifier catalogue number (site, role)).1.declared ↔
      name ∈ scope.declared ∨ (role = .varTarget ∧ site.token.lexeme = name) := by
  cases role with
  | varTarget =>
      simp only [identifier, declareVariable, true_and]
      split_ifs with h
      · refine ⟨.inl, ?_⟩
        rintro (hmem | rfl)
        · exact hmem
        · exact declares_iff.mp h
      · rw [List.mem_cons, or_comm, eq_comm]
  | use =>
      simp only [identifier, recordUse]
      split_ifs <;> simp
  | _ => simp [identifier]

/-- Several identifiers declare the names of the targets of `var` among them. -/
lemma mem_declared_identifiers :
    name ∈ (scope.identifiers catalogue number roles).1.declared ↔ name ∈ scope.declared ∨
      ∃ site, (site, Role.varTarget) ∈ roles ∧ site.token.lexeme = name := by
  induction roles generalizing scope with
  | nil => simp [identifiers]
  | cons first rest ih =>
      obtain ⟨site, role⟩ := first
      rw [identifiers, ih, mem_declared_identifier, or_assoc]
      simp only [List.mem_cons, Prod.mk.injEq, or_and_right, exists_or]
      refine or_congr_right (or_congr_left ?_)
      constructor
      · rintro ⟨rfl, rfl⟩
        exact ⟨site, ⟨rfl, rfl⟩, rfl⟩
      · rintro ⟨_, ⟨rfl, rfl⟩, rfl⟩
        exact ⟨rfl, rfl⟩

/-- After a line, the names that it declares are declared too. -/
theorem mem_declared_line :
    name ∈ (scope.line catalogue number tokens).1.declared ↔
      name ∈ scope.declared ∨ DeclaresName tokens name := by
  have htargets : (∃ site, (site, Role.varTarget) ∈ identifierRoles tokens ∧
      site.token.lexeme = name) ↔
        ∃ index, VarTarget tokens index ∧ SpelledAt tokens index name := by
    simpa using exists_varTarget_iff (p := fun _ => True)
  rw [line, mem_declared_identifiers, mem_declared_declareHead, htargets, or_assoc]
  refine or_congr_right ?_
  simp only [DeclaresName, or_and_right, exists_or]
  exact or_comm

/-! ### Findings on a line -/

/-- A name problem of the token at an index, given what is declared before the
line. -/
inductive NameProblem (catalogue : Catalogue) (scope : Scope) (tokens : List Token)
    (index : Nat) (token : Token) : Problem → Prop where
  /-- A target of `var` whose name is declared already. -/
  | redeclared (target : VarTarget tokens index)
      (known : token.lexeme ∈ scope.declared ∨ DeclaredOnLine tokens index token.lexeme) :
      NameProblem catalogue scope tokens index token (.redeclared token.name)
  /-- A use of a name that is neither built in nor a literal nor declared. -/
  | undeclared (used : VariableUse tokens index)
      (not_builtin : catalogue.contains token.lexeme = false)
      (not_literal : Builtin.isLiteral token.lexeme = false)
      (unknown : ¬ (token.lexeme ∈ scope.declared ∨
        DeclaredOnLine tokens index token.lexeme)) :
      NameProblem catalogue scope tokens index token (.undeclared token.name)

/-- A finding on several identifiers is one on a single identifier, in the scope
that the ones before have made. -/
lemma mem_identifiers_iff :
    finding ∈ (scope.identifiers catalogue number roles).2 ↔
      ∃ (early : List (Site × Role)) (entry : Site × Role) (late : List (Site × Role)),
        roles = early ++ entry :: late ∧
        finding ∈ ((scope.identifiers catalogue number early).1.identifier catalogue
          number entry).2 := by
  constructor
  · intro h
    induction roles generalizing scope with
    | nil => simp [identifiers] at h
    | cons first rest ih =>
        rw [identifiers, List.mem_append] at h
        rcases h with h | h
        · exact ⟨[], first, rest, rfl, h⟩
        · obtain ⟨early, entry, late, rfl, hmem⟩ := ih h
          exact ⟨first :: early, entry, late, rfl, hmem⟩
  · rintro ⟨early, entry, late, rfl, h⟩
    induction early generalizing scope with
    | nil => exact List.mem_append_left _ h
    | cons first rest ih => exact List.mem_append_right _ (ih h)

/-- What is declared when an identifier of a line is reached. -/
lemma mem_declared_early {early late : List (Site × Role)} {entry : Site × Role}
    (h : identifierRoles tokens = early ++ entry :: late) :
    name ∈ ((scope.declareHead tokens).identifiers catalogue number early).1.declared ↔
      name ∈ scope.declared ∨ DeclaredOnLine tokens entry.1.index name := by
  rw [mem_declared_identifiers, mem_declared_declareHead, exists_varTarget_early_iff h,
    or_assoc, DeclaredOnLine]

/-- What one identifier says. -/
lemma identifier_findings_eq (site : Site) (role : Role) :
    (scope.identifier catalogue number (site, role)).2 =
      if role = .varTarget ∧ site.token.lexeme ∈ scope.declared then
        [⟨⟨number, site.token.column⟩, .redeclared site.token.name⟩]
      else if role = .use ∧ catalogue.contains site.token.lexeme = false ∧
          Builtin.isLiteral site.token.lexeme = false ∧
            site.token.lexeme ∉ scope.declared then
        [⟨⟨number, site.token.column⟩, .undeclared site.token.name⟩]
      else [] := by
  cases role with
  | varTarget =>
      by_cases h : site.token.lexeme ∈ scope.declared
      · simp [identifier, declareVariable, declares_iff, h, Token.name]
      · simp [identifier, declareVariable, declares_iff, h]
  | use =>
      by_cases hbuiltin : catalogue.contains site.token.lexeme = true
      · simp [identifier, recordUse, hbuiltin]
      · by_cases hdeclared : site.token.lexeme ∈ scope.declared
        · simp [identifier, recordUse, hbuiltin, declares_iff, hdeclared]
        · by_cases hliteral : Builtin.isLiteral site.token.lexeme = true
          · simp [identifier, recordUse, hbuiltin, hdeclared, hliteral]
          · simp [identifier, recordUse, hbuiltin, declares_iff, hdeclared, hliteral,
              Token.name]
  | _ => simp [identifier]

/-- The findings on one identifier. -/
lemma mem_identifier_iff :
    finding ∈ (scope.identifier catalogue number (site, role)).2 ↔
      finding.place = ⟨number, site.token.column⟩ ∧
        ((role = .varTarget ∧ site.token.lexeme ∈ scope.declared ∧
            finding.problem = .redeclared site.token.name) ∨
          (role = .use ∧ catalogue.contains site.token.lexeme = false ∧
            Builtin.isLiteral site.token.lexeme = false ∧
              site.token.lexeme ∉ scope.declared ∧
                finding.problem = .undeclared site.token.name)) := by
  obtain ⟨place, problem⟩ := finding
  rw [identifier_findings_eq]
  split_ifs with hredeclared hundeclared
  · obtain ⟨rfl, hknown⟩ := hredeclared
    simp [hknown]
  · obtain ⟨rfl, hbuiltin, hliteral, hunknown⟩ := hundeclared
    simp [hbuiltin, hliteral, hunknown]
  · refine iff_of_false List.not_mem_nil ?_
    rintro ⟨_, ⟨hrole, hknown, _⟩ | ⟨hrole, hbuiltin, hliteral, hunknown, _⟩⟩
    · exact hredeclared ⟨hrole, hknown⟩
    · exact hundeclared ⟨hrole, hbuiltin, hliteral, hunknown⟩

/-- The findings on a line are the name problems of its tokens. -/
theorem mem_line_findings_iff :
    finding ∈ (scope.line catalogue number tokens).2 ↔
      ∃ index token, tokens[index]? = some token ∧ finding.place = ⟨number, token.column⟩ ∧
        NameProblem catalogue scope tokens index token finding.problem := by
  rw [line, mem_identifiers_iff]
  constructor
  · rintro ⟨early, ⟨site, role⟩, late, hsplit, h⟩
    obtain ⟨hsite, hident, hrole⟩ : site ∈ Site.ofTokens tokens ∧
        site.token.isIdentifier = true ∧ site.role tokens = role := by
      rw [← mem_identifierRoles_iff, hsplit]
      exact List.mem_append_right _ List.mem_cons_self
    obtain ⟨hplace, h⟩ := mem_identifier_iff.mp h
    refine ⟨site.index, site.token, (mem_ofTokens_iff.mp hsite).1, hplace, ?_⟩
    rcases h with ⟨rfl, hknown, hproblem⟩ | ⟨rfl, hbuiltin, hliteral, hunknown, hproblem⟩
    · rw [hproblem]
      exact .redeclared ((role_eq_varTarget_iff hsite hident).mp hrole)
        ((mem_declared_early hsplit).mp hknown)
    · rw [hproblem]
      exact .undeclared ((role_eq_use_iff hsite hident).mp hrole) hbuiltin hliteral
        (mt (mem_declared_early hsplit).mpr hunknown)
  · rintro ⟨index, token, htoken, hplace, h⟩
    obtain ⟨place, problem⟩ := finding
    simp only at hplace h
    have hkind : KindAt tokens index .identifier := by
      cases h with
      | redeclared target _ => exact target.1
      | undeclared used _ _ _ => exact used.identifier
    obtain ⟨site, hsite, hident, rfl, rfl⟩ := exists_identifier_site htoken hkind
    obtain ⟨early, late, hsplit⟩ := List.append_of_mem
      (mem_identifierRoles_iff.mpr ⟨hsite, hident, rfl⟩)
    refine ⟨early, _, late, hsplit, mem_identifier_iff.mpr ⟨hplace, ?_⟩⟩
    cases h with
    | redeclared target known =>
        exact .inl ⟨(role_eq_varTarget_iff hsite hident).mpr target,
          (mem_declared_early hsplit).mpr known, rfl⟩
    | undeclared used not_builtin not_literal unknown =>
        exact .inr ⟨(role_eq_use_iff hsite hident).mpr used, not_builtin, not_literal,
          mt (mem_declared_early hsplit).mp unknown, rfl⟩

/-! ### Variables kept for the end of the script -/

section Introduced

variable {entry : Variable}

/-- What one identifier keeps. -/
lemma identifier_introduced_eq (site : Site) (role : Role) :
    (scope.identifier catalogue number (site, role)).1.introduced =
      if role = .varTarget ∧ site.token.lexeme ∉ scope.declared then
        ⟨site.token.lexeme, ⟨number, site.token.column⟩⟩ :: scope.introduced
      else scope.introduced := by
  cases role with
  | varTarget =>
      by_cases h : site.token.lexeme ∈ scope.declared
      · simp [identifier, declareVariable, declares_iff, h]
      · simp [identifier, declareVariable, declares_iff, h]
  | use =>
      have hnot : ¬ (Role.use = .varTarget ∧ site.token.lexeme ∉ scope.declared) := by
        simp
      rw [if_neg hnot, identifier, recordUse]
      split_ifs <;> rfl
  | _ => simp [identifier]

lemma mem_introduced_identifier :
    entry ∈ (scope.identifier catalogue number (site, role)).1.introduced ↔
      entry ∈ scope.introduced ∨ (role = .varTarget ∧ site.token.lexeme ∉ scope.declared ∧
        entry = ⟨site.token.lexeme, ⟨number, site.token.column⟩⟩) := by
  rw [identifier_introduced_eq]
  split_ifs with hnew
  · rw [List.mem_cons, or_comm]
    simp only [hnew, not_false_eq_true, true_and]
  · refine ⟨.inl, ?_⟩
    rintro (hkept | ⟨hrole, hunknown, _⟩)
    · exact hkept
    · exact absurd ⟨hrole, hunknown⟩ hnew

/-- A variable that several identifiers introduce is introduced by one of them. -/
lemma mem_introduced_identifiers :
    entry ∈ (scope.identifiers catalogue number roles).1.introduced ↔
      entry ∈ scope.introduced ∨
        ∃ (early : List (Site × Role)) (site : Site) (late : List (Site × Role)),
          roles = early ++ (site, Role.varTarget) :: late ∧
          site.token.lexeme ∉ (scope.identifiers catalogue number early).1.declared ∧
            entry = ⟨site.token.lexeme, ⟨number, site.token.column⟩⟩ := by
  induction roles generalizing scope with
  | nil => simp [identifiers]
  | cons first rest ih =>
      obtain ⟨site, role⟩ := first
      rw [identifiers, ih, mem_introduced_identifier, or_assoc]
      refine or_congr_right ?_
      constructor
      · rintro (⟨rfl, hnew, rfl⟩ | ⟨early, other, late, rfl, hnew, rfl⟩)
        · exact ⟨[], site, rest, rfl, hnew, rfl⟩
        · exact ⟨(site, role) :: early, other, late, rfl, hnew, rfl⟩
      · rintro ⟨early, other, late, hsplit, hnew, rfl⟩
        cases early with
        | nil =>
            obtain ⟨⟨rfl, rfl⟩, rfl⟩ : (site = other ∧ role = .varTarget) ∧ rest = late := by
              simpa using hsplit
            exact .inl ⟨rfl, hnew, rfl⟩
        | cons first early =>
            obtain ⟨rfl, rfl⟩ := List.cons.inj hsplit
            exact .inr ⟨early, other, late, rfl, hnew, rfl⟩

/-- A line introduces its targets of `var` whose names are new. -/
theorem mem_introduced_line :
    entry ∈ (scope.line catalogue number tokens).1.introduced ↔
      entry ∈ scope.introduced ∨ ∃ index token, tokens[index]? = some token ∧
        VarTarget tokens index ∧
          ¬ (token.lexeme ∈ scope.declared ∨ DeclaredOnLine tokens index token.lexeme) ∧
            entry = ⟨token.lexeme, ⟨number, token.column⟩⟩ := by
  rw [line, mem_introduced_identifiers, introduced_declareHead]
  refine or_congr_right ?_
  constructor
  · rintro ⟨early, site, late, hsplit, hnew, rfl⟩
    obtain ⟨hsite, hident, hrole⟩ : site ∈ Site.ofTokens tokens ∧
        site.token.isIdentifier = true ∧ site.role tokens = .varTarget := by
      rw [← mem_identifierRoles_iff, hsplit]
      exact List.mem_append_right _ List.mem_cons_self
    exact ⟨site.index, site.token, (mem_ofTokens_iff.mp hsite).1,
      (role_eq_varTarget_iff hsite hident).mp hrole,
      mt (mem_declared_early hsplit).mpr hnew, rfl⟩
  · rintro ⟨index, token, htoken, htarget, hnew, rfl⟩
    obtain ⟨site, hsite, hident, rfl, rfl⟩ := exists_identifier_site htoken htarget.1
    obtain ⟨early, late, hsplit⟩ := List.append_of_mem (mem_identifierRoles_iff.mpr
      ⟨hsite, hident, (role_eq_varTarget_iff hsite hident).mpr htarget⟩)
    exact ⟨early, site, late, hsplit, mt (mem_declared_early hsplit).mp hnew, rfl⟩

end Introduced

/-! ### The lines of a script -/

/-- The scope after several lines. -/
def afterLines (catalogue : Catalogue) : Scope → List TokenLine → Scope
  | scope, [] => scope
  | scope, line :: rest =>
    afterLines catalogue (scope.line catalogue line.number line.tokens).1 rest

/-- The check of variables goes through a script with its scope. -/
lemma after_declarations (lines : List TokenLine) :
    (Checker.declarations scope).after catalogue (lines.map .line) =
      .declarations (scope.afterLines catalogue lines) := by
  induction lines generalizing scope with
  | nil => rfl
  | cons line rest ih => exact ih

/-- After several lines, the names that one of them declares are declared too. -/
lemma mem_declared_afterLines {lines : List TokenLine} :
    name ∈ (scope.afterLines catalogue lines).declared ↔
      name ∈ scope.declared ∨ ∃ line ∈ lines, DeclaresName line.tokens name := by
  induction lines generalizing scope with
  | nil => simp [afterLines]
  | cons line rest ih =>
      rw [afterLines, ih, mem_declared_line, or_assoc]
      simp

/-- What is declared before an occurrence in a script. -/
lemma declaredBefore_iff (catalogue : Catalogue) {before : List TokenLine} {index : Nat} :
    DeclaredBefore before tokens index name ↔
      name ∈ (Scope.empty.afterLines catalogue before).declared ∨
        DeclaredOnLine tokens index name := by
  rw [mem_declared_afterLines, DeclaredBefore]
  simp [Scope.empty]

/-- The variables that a script introduces are the targets of `var` whose names
are not declared before. -/
theorem mem_introduced_afterLines {lines : List TokenLine} {entry : Variable} :
    entry ∈ (Scope.empty.afterLines catalogue lines).introduced ↔
      ∃ before line, LineAfter lines before line ∧
        ∃ index token, line.tokens[index]? = some token ∧ VarTarget line.tokens index ∧
          ¬ DeclaredBefore before line.tokens index token.lexeme ∧
            entry = ⟨token.lexeme, ⟨line.number, token.column⟩⟩ := by
  have hrun : ∀ scope : Scope, entry ∈ (scope.afterLines catalogue lines).introduced ↔
      entry ∈ scope.introduced ∨ ∃ before line, LineAfter lines before line ∧
        ∃ index token, line.tokens[index]? = some token ∧ VarTarget line.tokens index ∧
          ¬ (token.lexeme ∈ (scope.afterLines catalogue before).declared ∨
            DeclaredOnLine line.tokens index token.lexeme) ∧
              entry = ⟨token.lexeme, ⟨line.number, token.column⟩⟩ := by
    induction lines with
    | nil => simp [afterLines]
    | cons line rest ih =>
        intro scope
        rw [afterLines, ih, mem_introduced_line, or_assoc]
        refine or_congr_right ?_
        constructor
        · rintro (h | ⟨before, other, hafter, h⟩)
          · exact ⟨[], line, lineAfter_cons.mpr (.inl ⟨rfl, rfl⟩), h⟩
          · exact ⟨line :: before, other, lineAfter_cons.mpr (.inr ⟨before, rfl, hafter⟩), h⟩
        · rintro ⟨before, other, hafter, h⟩
          rcases lineAfter_cons.mp hafter with ⟨rfl, rfl⟩ | ⟨early, rfl, hearly⟩
          · exact .inl h
          · exact .inr ⟨early, other, hearly, h⟩
  simp only [hrun, declaredBefore_iff catalogue]
  simp [Scope.empty]

end Scope

/-! ### Findings on a script -/

section Script

variable {catalogue : Catalogue} {lines : List TokenLine}

/-- The findings of the check of variables: the name problems of the lines, and at
the end the introduced variables that are not used. -/
theorem mem_declarations_findings_iff {finding : Finding} :
    finding ∈ (Checker.declarations Scope.empty).findings catalogue (Visit.script lines) ↔
      (∃ before line, LineAfter lines before line ∧
        ∃ index token, line.tokens[index]? = some token ∧
          finding.place = ⟨line.number, token.column⟩ ∧
            Scope.NameProblem catalogue (Scope.empty.afterLines catalogue before) line.tokens
              index token finding.problem) ∨
      ∃ entry ∈ (Scope.empty.afterLines catalogue lines).introduced,
        (Scope.empty.afterLines catalogue lines).uses entry.name = false ∧
          finding = ⟨entry.place, .unused (String.ofList entry.name)⟩ := by
  rw [Checker.mem_findings_script_iff, Scope.after_declarations]
  refine or_congr ?_ ?_
  · refine exists_congr fun before => exists_congr fun line => and_congr_right fun _ => ?_
    rw [Scope.after_declarations]
    exact Scope.mem_line_findings_iff
  · simp only [Checker.finish, Scope.unusedFindings, List.mem_map, List.mem_filter,
      List.mem_reverse, Bool.not_eq_true', and_assoc]
    refine exists_congr fun entry => and_congr_right fun _ => and_congr_right fun _ => ?_
    exact eq_comm

/-- A use of a variable in a script is told exactly when its name is neither built
in nor a literal nor declared before. -/
theorem undeclared_mem_findings_iff {place : Position} {text : String} :
    ⟨place, .undeclared text⟩ ∈
        (Checker.declarations Scope.empty).findings catalogue (Visit.script lines) ↔
      ∃ before line, LineAfter lines before line ∧
        ∃ index token, line.tokens[index]? = some token ∧
          place = ⟨line.number, token.column⟩ ∧ text = token.name ∧
            VariableUse line.tokens index ∧ catalogue.contains token.lexeme = false ∧
              Builtin.isLiteral token.lexeme = false ∧
                ¬ DeclaredBefore before line.tokens index token.lexeme := by
  rw [mem_declarations_findings_iff]
  constructor
  · rintro (⟨before, line, hafter, index, token, htoken, hplace, h⟩ | ⟨_, _, _, h⟩)
    · cases h with
      | undeclared used not_builtin not_literal unknown =>
          exact ⟨before, line, hafter, index, token, htoken, hplace, rfl, used, not_builtin,
            not_literal, mt (Scope.declaredBefore_iff catalogue).mp unknown⟩
    · simp at h
  · rintro ⟨before, line, hafter, index, token, htoken, hplace, rfl, used, not_builtin,
      not_literal, unknown⟩
    exact .inl ⟨before, line, hafter, index, token, htoken, hplace,
      .undeclared used not_builtin not_literal
        (mt (Scope.declaredBefore_iff catalogue).mpr unknown)⟩

end Script

end ScriptLint
