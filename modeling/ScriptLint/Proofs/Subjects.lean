import Mathlib
import ScriptLint.Proofs.Names.Declarations
import ScriptLint.Proofs.Nesting.Balance

/-!
The tokens that findings are about.

* `lineShapeFindings_eq_nil_iff`: when the brackets and characters of a line are in
  order.
* `IsAbout`, `Finding.HasSubject`: a finding stands at a token of a line and is about
  it: it names the token, or tells of the keyword or bracket that the token is.
* `visit_blocks`, `mem_blocks_findings`: an unclosed block is told at its opener,
  which the stack has carried through the visits.
* `exists_subject`: each finding on a script stands at a token of one of its lines
  and is about that token.
-/

namespace ScriptLint

variable {catalogue : Catalogue} {number : Nat} {tokens : List Token} {finding : Finding}

/-! ### Brackets and characters -/

/-- A finding on brackets means that their numbers differ. -/
lemma unbalanced?_eq_none_iff {kind : BracketKind} :
    unbalanced? kind number tokens = none ↔
      delimiterCount kind.left tokens = delimiterCount kind.right tokens := by
  rw [unbalanced?]
  split_ifs with h
  · exact iff_of_true rfl h
  · refine iff_of_false ?_ h
    rw [Option.map_eq_none_iff, List.find?_eq_none]
    intro hnone
    -- the surplus sort of bracket is the more frequent one, so it occurs
    have hzero : delimiterCount (Problem.surplus kind (delimiterCount kind.left tokens)
        (delimiterCount kind.right tokens)) tokens = 0 :=
      List.countP_eq_zero.mpr hnone
    rw [Problem.surplus] at hzero
    split_ifs at hzero <;> omega

/-- The finding on brackets stands at the first one of the surplus sort. -/
lemma unbalanced?_eq_some {kind : BracketKind}
    (h : unbalanced? kind number tokens = some finding) :
    ∃ (lefts rights : Nat) (before : List Token) (token : Token) (later : List Token),
      tokens = before ++ token :: later ∧
      token.kind = .delimiter (Problem.surplus kind lefts rights) ∧
        (∀ earlier ∈ before, earlier.kind ≠ .delimiter (Problem.surplus kind lefts rights)) ∧
          finding = ⟨⟨number, token.column⟩, .unbalanced kind lefts rights⟩ := by
  rw [unbalanced?] at h
  split_ifs at h
  obtain ⟨token, hfind, rfl⟩ := Option.map_eq_some_iff.mp h
  obtain ⟨hkind, before, later, hsplit, hbefore⟩ := List.find?_eq_some_iff_append.mp hfind
  refine ⟨_, _, before, token, later, hsplit, Token.isDelimiter_iff.mp hkind, ?_, rfl⟩
  intro earlier hmem hkind
  have hnot := hbefore earlier hmem
  rw [Token.isDelimiter_iff.mpr hkind] at hnot
  exact absurd hnot (by decide)

lemma Token.invalidCharacter?_eq_some_iff {token : Token} {c : Char} :
    token.invalidCharacter? = some c ↔ token.kind = .invalid c := by
  rw [Token.invalidCharacter?]
  cases token.kind <;> simp

/-- No finding on characters means that no token is invalid. -/
lemma invalidCharacter?_eq_none_iff :
    invalidCharacter? number tokens = none ↔
      ∀ token ∈ tokens, ∀ c, token.kind ≠ .invalid c := by
  rw [invalidCharacter?, List.findSome?_eq_none_iff]
  refine forall₂_congr fun token _ => ?_
  rw [Option.map_eq_none_iff, Option.eq_none_iff_forall_ne_some]
  exact forall_congr' fun c => not_congr Token.invalidCharacter?_eq_some_iff

/-- The finding on characters stands at an invalid token. -/
lemma invalidCharacter?_eq_some (h : invalidCharacter? number tokens = some finding) :
    ∃ (before : List Token) (token : Token) (later : List Token) (c : Char),
      tokens = before ++ token :: later ∧ token.kind = .invalid c ∧
      finding = ⟨⟨number, token.column⟩, .invalidCharacter c⟩ := by
  obtain ⟨before, token, later, hsplit, hsome, _⟩ := List.findSome?_eq_some_iff.mp h
  obtain ⟨c, hc, rfl⟩ := Option.map_eq_some_iff.mp hsome
  exact ⟨before, token, later, c, hsplit, Token.invalidCharacter?_eq_some_iff.mp hc, rfl⟩

/-- What a line shows by itself: the findings on brackets, then that on characters. -/
lemma lineShapeFindings_eq (number : Nat) (tokens : List Token) :
    lineShapeFindings number tokens = (unbalanced? .round number tokens).toList ++
      ((unbalanced? .square number tokens).toList ++
        (invalidCharacter? number tokens).toList) := by
  rw [lineShapeFindings, List.filterMap_eq_flatMap_toList]
  simp only [List.flatMap_cons, List.flatMap_nil, id_eq, List.append_nil]

/-- It is a finding on brackets or on characters. -/
lemma mem_lineShapeFindings (h : finding ∈ lineShapeFindings number tokens) :
    (∃ kind, unbalanced? kind number tokens = some finding) ∨
      invalidCharacter? number tokens = some finding := by
  rw [lineShapeFindings_eq, List.mem_append, List.mem_append, Option.mem_toList,
    Option.mem_toList, Option.mem_toList] at h
  rcases h with h | h | h
  · exact .inl ⟨.round, h⟩
  · exact .inl ⟨.square, h⟩
  · exact .inr h

/-- A line shows nothing by itself exactly when its brackets agree in number and
no token is invalid. -/
theorem lineShapeFindings_eq_nil_iff :
    lineShapeFindings number tokens = [] ↔
      delimiterCount .leftParen tokens = delimiterCount .rightParen tokens ∧
        delimiterCount .leftBracket tokens = delimiterCount .rightBracket tokens ∧
          ∀ token ∈ tokens, ∀ c, token.kind ≠ .invalid c := by
  have hcharacter : invalidCharacter? number tokens = none ↔
      ∀ token ∈ tokens, ∀ c, token.kind ≠ .invalid c := invalidCharacter?_eq_none_iff
  have hround : unbalanced? .round number tokens = none ↔
      delimiterCount .leftParen tokens = delimiterCount .rightParen tokens :=
    unbalanced?_eq_none_iff
  have hsquare : unbalanced? .square number tokens = none ↔
      delimiterCount .leftBracket tokens = delimiterCount .rightBracket tokens :=
    unbalanced?_eq_none_iff
  rw [← hround, ← hsquare, ← hcharacter, lineShapeFindings_eq, List.append_eq_nil_iff,
    List.append_eq_nil_iff, Option.toList_eq_nil_iff, Option.toList_eq_nil_iff,
    Option.toList_eq_nil_iff]

/-! ### The subject of a finding -/

/-- What a token on a line with this number has to do with a problem that is told
at its place. Before it stand the tokens `before`. -/
inductive IsAbout (number : Nat) (before : List Token) (token : Token) : Problem → Prop where
  /-- The first bracket of the surplus sort. -/
  | surplus {kind : BracketKind} {lefts rights : Nat}
      (surplus : token.kind = .delimiter (Problem.surplus kind lefts rights))
      (first : ∀ earlier ∈ before,
        earlier.kind ≠ .delimiter (Problem.surplus kind lefts rights)) :
      IsAbout number before token (.unbalanced kind lefts rights)
  /-- A token that starts with the character. -/
  | invalid {c : Char} (invalid : token.kind = .invalid c) :
      IsAbout number before token (.invalidCharacter c)
  /-- The keyword that opened the block, on this line. -/
  | opener {kind : BlockKind} (opener : token.kind = .keyword kind.opener) :
      IsAbout number before token (.unclosed kind number)
  /-- The closer, which met a block of another kind. -/
  | closer {closer opened : BlockKind} {openedAt : Nat}
      (keyword : token.kind = .keyword closer.closer) :
      IsAbout number before token (.mismatched closer opened openedAt)
  /-- The closer, which met no block. -/
  | strayCloser {closer : BlockKind} (keyword : token.kind = .keyword closer.closer) :
      IsAbout number before token (.stray closer)
  | redeclared (identifier : token.kind = .identifier) :
      IsAbout number before token (.redeclared token.name)
  | undeclared (identifier : token.kind = .identifier) :
      IsAbout number before token (.undeclared token.name)
  | unused (identifier : token.kind = .identifier) :
      IsAbout number before token (.unused token.name)
  | unknownFunction (identifier : token.kind = .identifier) :
      IsAbout number before token (.unknownFunction token.name)
  /-- The keyword of the loop. -/
  | loop (keyword : token.kind = .keyword .while_) :
      IsAbout number before token .infiniteLoop

/-- The finding stands at a token of the line and is about it. -/
def Finding.HasSubject (finding : Finding) (line : TokenLine) : Prop :=
  ∃ (before : List Token) (token : Token) (later : List Token),
    line.tokens = before ++ token :: later ∧
    finding.place = ⟨line.number, token.column⟩ ∧
      IsAbout line.number before token finding.problem

/-- A token given by its index as a subject. -/
lemma Finding.hasSubject_of_getElem? {line : TokenLine} {index : Nat} {token : Token}
    (htoken : line.tokens[index]? = some token)
    (hplace : finding.place = ⟨line.number, token.column⟩)
    (habout : ∀ before, IsAbout line.number before token finding.problem) :
    finding.HasSubject line := by
  obtain ⟨before, later, hsplit⟩ := List.append_of_mem (List.mem_of_getElem? htoken)
  exact ⟨before, token, later, hsplit, hplace, habout before⟩

/-- The first token of a line as a subject. -/
lemma Finding.hasSubject_start {line : TokenLine} {first : Token} {rest : List Token}
    (htokens : line.tokens = first :: rest) (hplace : finding.place = line.start)
    (habout : IsAbout line.number [] first finding.problem) : finding.HasSubject line := by
  refine ⟨[], first, rest, htokens, ?_, habout⟩
  rw [hplace, TokenLine.start, htokens]
  rfl

/-- What a line shows by itself is about its tokens. -/
lemma hasSubject_of_lineShape {line : TokenLine}
    (h : finding ∈ lineShapeFindings line.number line.tokens) : finding.HasSubject line := by
  rcases mem_lineShapeFindings h with ⟨kind, h⟩ | h
  · obtain ⟨lefts, rights, before, token, later, hsplit, hkind, hfirst, rfl⟩ :=
      unbalanced?_eq_some h
    exact ⟨before, token, later, hsplit, rfl, .surplus hkind hfirst⟩
  · obtain ⟨before, token, later, c, hsplit, hkind, rfl⟩ := invalidCharacter?_eq_some h
    exact ⟨before, token, later, hsplit, rfl, .invalid hkind⟩

/-! ### Openers and closers -/

/-- A line opens a block exactly when an opener leads at least two tokens. -/
lemma blockEvent?_eq_opens_iff {kind : BlockKind} :
    blockEvent? tokens = some (.opens kind) ↔
      ∃ first second rest, tokens = first :: second :: rest ∧
        first.kind = .keyword kind.opener := by
  match tokens with
  | [] => simp [blockEvent?]
  | [only] =>
      rw [blockEvent?]
      split <;> simp
  | first :: second :: rest =>
      obtain ⟨tokenKind, lexeme, column⟩ := first
      cases tokenKind with
      | keyword keyword =>
          cases keyword <;> cases kind <;> simp [blockEvent?, BlockKind.opener]
      | _ => simp [blockEvent?]

/-- A line closes a block exactly when a closer is its only token. -/
lemma blockEvent?_eq_closes_iff {kind : BlockKind} :
    blockEvent? tokens = some (.closes kind) ↔
      ∃ only, tokens = [only] ∧ only.kind = .keyword kind.closer := by
  match tokens with
  | [] => simp [blockEvent?]
  | [only] =>
      obtain ⟨tokenKind, lexeme, column⟩ := only
      cases tokenKind with
      | keyword keyword =>
          cases keyword <;> cases kind <;> simp [blockEvent?, BlockKind.closer]
      | _ => simp [blockEvent?]
  | first :: second :: rest =>
      rw [blockEvent?]
      split <;> simp

/-- The finding on a frame that is still open at the end of a script. -/
def Frame.unclosed (frame : Frame) : Finding :=
  ⟨frame.openedAt, .unclosed frame.kind frame.openedAt.line⟩

/-- One visit: a new frame is about the opener of the line, and a finding is about
a frame of the stack or about the closer of the line. -/
lemma visit_blocks (catalogue : Catalogue) (stack : List Frame) (visit : Visit) :
    ∃ after notes, (Checker.blocks stack).visit catalogue visit = (.blocks after, notes) ∧
      (∀ frame ∈ after,
        frame ∈ stack ∨ ∃ line, visit = .line line ∧ frame.unclosed.HasSubject line) ∧
      ∀ finding ∈ notes.findings,
        (∃ frame ∈ stack, finding = frame.unclosed) ∨
          ∃ line, visit = .line line ∧ finding.HasSubject line := by
  cases visit with
  | finish =>
      refine ⟨[], _, Checker.visit_end, by simp, fun finding h => .inl ?_⟩
      obtain ⟨frame, hframe, rfl⟩ := List.mem_map.mp h
      exact ⟨frame, List.mem_reverse.mp hframe, rfl⟩
  | line line =>
      cases hevent : blockEvent? line.tokens with
      | none => exact ⟨stack, _, Checker.visit_silent hevent, fun _ => .inl, by simp⟩
      | some mark =>
          cases mark with
          | opens kind =>
              obtain ⟨opener, _, _, htokens, hkind⟩ := blockEvent?_eq_opens_iff.mp hevent
              refine ⟨_, _, Checker.visit_opens hevent, fun frame hframe => ?_, by simp⟩
              rcases List.mem_cons.mp hframe with rfl | hframe
              · exact .inr ⟨line, rfl, Finding.hasSubject_start htokens rfl (.opener hkind)⟩
              · exact .inl hframe
          | closes kind =>
              obtain ⟨closer, htokens, hkind⟩ := blockEvent?_eq_closes_iff.mp hevent
              cases stack with
              | nil =>
                  refine ⟨[], _, Checker.visit_closes_empty hevent, by simp,
                    fun finding h => ?_⟩
                  obtain rfl := List.mem_singleton.mp h
                  exact .inr ⟨line, rfl,
                    Finding.hasSubject_start htokens rfl (.strayCloser hkind)⟩
              | cons frame outer =>
                  by_cases hown : frame.kind = kind
                  · exact ⟨outer, _, Checker.visit_closes_own hevent hown,
                      fun _ h => .inl (List.mem_cons_of_mem _ h), by simp⟩
                  · refine ⟨outer, _, Checker.visit_closes_other hevent hown,
                      fun _ h => .inl (List.mem_cons_of_mem _ h), fun finding h => ?_⟩
                    obtain rfl := List.mem_singleton.mp h
                    exact .inr ⟨line, rfl,
                      Finding.hasSubject_start htokens rfl (.closer hkind)⟩

/-- A finding on nesting is about the opener of a frame that was on the stack at
the start, or about a token of one of the lines. -/
lemma mem_blocks_findings {stack : List Frame} {visits : List Visit}
    (h : finding ∈ (Checker.blocks stack).findings catalogue visits) :
    (∃ frame ∈ stack, finding = frame.unclosed) ∨
      ∃ line, .line line ∈ visits ∧ finding.HasSubject line := by
  induction visits generalizing stack with
  | nil => simp at h
  | cons visit rest ih =>
      obtain ⟨after, notes, hvisit, hframes, hnotes⟩ :=
        visit_blocks catalogue stack visit
      rw [Checker.findings_cons, hvisit, List.mem_append] at h
      have hhere : (∃ line, visit = .line line ∧ finding.HasSubject line) →
          ∃ line, .line line ∈ visit :: rest ∧ finding.HasSubject line := by
        rintro ⟨line, rfl, hsubject⟩
        exact ⟨line, List.mem_cons_self, hsubject⟩
      rcases h with h | h
      · exact (hnotes finding h).imp_right hhere
      · rcases ih h with ⟨frame, hframe, rfl⟩ | ⟨line, hline, hsubject⟩
        · exact (hframes frame hframe).imp (fun h => ⟨frame, h, rfl⟩) hhere
        · exact .inr ⟨line, List.mem_cons_of_mem _ hline, hsubject⟩

/-! ### Calls and loops -/

/-- What is found on a loop that cannot end stands at the first token. -/
lemma mem_endlessFindings_iff {number : Nat} {tokens : List Token} :
    finding ∈ endlessFindings number tokens ↔ isEndless tokens = true ∧
      ∃ first, tokens.head? = some first ∧ ⟨⟨number, first.column⟩, .infiniteLoop⟩ = finding := by
  rw [endlessFindings]
  split_ifs with hendless <;> simp [hendless]

/-- A finding on a call is about the name of the function, one on a loop about its
keyword. -/
lemma hasSubject_of_calls {functions : Functions} {line : TokenLine}
    (h : finding ∈ (functions.line catalogue line.number line.tokens).2) :
    finding.HasSubject line := by
  rw [Functions.line, List.mem_append] at h
  rcases h with h | h
  · simp only [Functions.unknownFindings, List.mem_map, List.mem_filter, calls] at h
    obtain ⟨_, ⟨⟨site, ⟨hsite, hcall⟩, rfl⟩, _⟩, rfl⟩ := h
    have hident : site.token.kind = .identifier :=
      (kindAt_site_iff hsite).mp ((isCall_iff hsite).mp hcall).1
    exact Finding.hasSubject_of_getElem? (mem_ofTokens_iff.mp hsite).1 rfl
      fun _ => .unknownFunction hident
  · obtain ⟨hendless, first, hfirst, rfl⟩ := mem_endlessFindings_iff.mp h
    obtain ⟨rest, htokens⟩ := List.head?_eq_some_iff.mp hfirst
    rw [htokens, isEndless, Bool.and_eq_true] at hendless
    exact ⟨[], first, rest, htokens, rfl, .loop (Token.isKeyword_iff.mp hendless.1)⟩

/-! ### Variables -/

/-- A finding on a variable is about an identifier of its name. -/
lemma hasSubject_of_declarations {lines : List TokenLine}
    (h : finding ∈
      (Checker.declarations Scope.empty).findings catalogue (Visit.script lines)) :
    ∃ line ∈ lines, finding.HasSubject line := by
  rcases mem_declarations_findings_iff.mp h with
    ⟨before, line, hafter, index, token, htoken, hplace, hproblem⟩ | ⟨entry, hentry, _, rfl⟩
  · obtain ⟨place, problem⟩ := finding
    refine ⟨line, hafter.mem, Finding.hasSubject_of_getElem? htoken hplace fun _ => ?_⟩
    cases hproblem with
    | redeclared target _ => exact .redeclared ((kindAt_iff htoken).mp target.1)
    | undeclared used _ _ _ => exact .undeclared ((kindAt_iff htoken).mp used.identifier)
  · obtain ⟨before, line, hafter, index, token, htoken, target, _, rfl⟩ :=
      Scope.mem_introduced_afterLines.mp hentry
    exact ⟨line, hafter.mem, Finding.hasSubject_of_getElem? htoken rfl
      fun _ => .unused ((kindAt_iff htoken).mp target.1)⟩

/-! ### All checks -/

/-- The check of single lines has no state. -/
lemma after_lineShape (lines : List TokenLine) :
    Checker.lineShape.after catalogue (lines.map .line) = .lineShape := by
  induction lines with
  | nil => rfl
  | cons line rest ih => exact ih

/-- The check of calls goes through the lines with some functions. -/
lemma exists_after_calls (functions : Functions) (lines : List TokenLine) :
    ∃ later, (Checker.calls functions).after catalogue (lines.map .line) = .calls later := by
  induction lines generalizing functions with
  | nil => exact ⟨functions, rfl⟩
  | cons line rest ih => exact ih _

/-- The findings of the check of single lines. -/
lemma mem_lineShape_findings_iff {lines : List TokenLine} :
    finding ∈ Checker.lineShape.findings catalogue (Visit.script lines) ↔
      ∃ line ∈ lines, finding ∈ lineShapeFindings line.number line.tokens := by
  rw [Checker.mem_findings_script_iff, after_lineShape, Checker.finish]
  simp only [after_lineShape, List.not_mem_nil, or_false]
  constructor
  · rintro ⟨before, line, hafter, hmem⟩
    exact ⟨line, hafter.mem, hmem⟩
  · rintro ⟨line, hline, hmem⟩
    obtain ⟨before, hafter⟩ := exists_lineAfter hline
    exact ⟨before, line, hafter, hmem⟩

/-- The findings of the check of calls come from the lines. -/
lemma exists_mem_calls_findings {lines : List TokenLine}
    (h : finding ∈ (Checker.calls Functions.empty).findings catalogue (Visit.script lines)) :
    ∃ line ∈ lines, ∃ functions : Functions,
      finding ∈ (functions.line catalogue line.number line.tokens).2 := by
  rcases Checker.mem_findings_script_iff.mp h with ⟨before, line, hline, hmem⟩ | hmem
  · obtain ⟨functions, hafter⟩ := exists_after_calls Functions.empty before
    rw [hafter] at hmem
    exact ⟨line, hline.mem, functions, hmem⟩
  · obtain ⟨functions, hafter⟩ := exists_after_calls Functions.empty lines
    rw [hafter] at hmem
    exact absurd hmem (List.not_mem_nil)

/-- The check of calls tells of unknown functions and of endless loops. -/
lemma problem_of_calls {lines : List TokenLine}
    (h : finding ∈ (Checker.calls Functions.empty).findings catalogue (Visit.script lines)) :
    (∃ name, finding.problem = .unknownFunction name) ∨ finding.problem = .infiniteLoop := by
  obtain ⟨line, _, functions, hmem⟩ := exists_mem_calls_findings h
  rw [Functions.line, List.mem_append] at hmem
  rcases hmem with hmem | hmem
  · obtain ⟨call, _, rfl⟩ := List.mem_map.mp hmem
    exact .inl ⟨_, rfl⟩
  · obtain ⟨_, first, _, rfl⟩ := mem_endlessFindings_iff.mp hmem
    exact .inr rfl

/-- Each finding on a script stands at a token of one of its lines and is about that
token. -/
theorem exists_subject {lines : List TokenLine} (h : finding ∈ allFindings catalogue lines) :
    ∃ line ∈ lines, finding.HasSubject line := by
  obtain ⟨checker, hchecker, h⟩ := mem_allFindings_iff.mp h
  simp only [Checker.standard, List.mem_cons, List.not_mem_nil, or_false] at hchecker
  rcases hchecker with rfl | rfl | rfl | rfl
  · obtain ⟨line, hline, hmem⟩ := mem_lineShape_findings_iff.mp h
    exact ⟨line, hline, hasSubject_of_lineShape hmem⟩
  · rcases mem_blocks_findings h with ⟨frame, hframe, _⟩ | ⟨line, hline, hsubject⟩
    · simp at hframe
    · refine ⟨line, ?_, hsubject⟩
      simpa [Visit.script] using hline
  · exact hasSubject_of_declarations h
  · obtain ⟨line, hline, functions, hmem⟩ := exists_mem_calls_findings h
    exact ⟨line, hline, hasSubject_of_calls hmem⟩

end ScriptLint
