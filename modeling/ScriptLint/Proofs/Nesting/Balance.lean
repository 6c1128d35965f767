import Mathlib
import ScriptLint.Proofs.Visits

/-!
Well-nested scripts.

* `blockEvent?`: what a line does to the nesting, read off its tokens.
* `Checker.visit_silent`, `Checker.visit_opens`, `Checker.visit_closes_empty`,
  `Checker.visit_closes_own`, `Checker.visit_closes_other`, `Checker.visit_end`:
  all that the check of nesting can do at a visit.
* `Balanced`: the balanced words over openers and closers, as a grammar.
* `Fits`: a word fits a stack of open blocks, if it closes them from the innermost
  outwards and is balanced otherwise; `fits_iff_segments` spells that out, and
  `findings_eq_nil_iff_fits` says that the check is silent on just these words.
* `silent_iff_balanced`: the check says nothing about a script exactly when the
  script is balanced.
-/

namespace ScriptLint

/-! ### The events of a script -/

/-- What a line does to the nesting of blocks. A line of at least two tokens
opens a block if its first token is an opener; a line of one token closes a block
if that token is a closer. -/
def blockEvent? : List Token → Option BlockMark
  | [] => none
  | [only] =>
    match only.kind with
    | .keyword .endif => some (.closes .branch)
    | .keyword .endwhile => some (.closes .whileLoop)
    | .keyword .endfor => some (.closes .forLoop)
    | .keyword .endfunction => some (.closes .function)
    | _ => none
  | first :: _ :: _ =>
    match first.kind with
    | .keyword .if_ => some (.opens .branch)
    | .keyword .while_ => some (.opens .whileLoop)
    | .keyword .for_ => some (.opens .forLoop)
    | .keyword .function => some (.opens .function)
    | _ => none

/-- The events of the lines of a script, in order. -/
def blockEvents (lines : List TokenLine) : List BlockMark :=
  lines.filterMap fun line => blockEvent? line.tokens

/-- The place of the first token of a line. -/
def TokenLine.start (line : TokenLine) : Position :=
  ⟨line.number, (line.tokens.head?.map Token.column).getD 0⟩

/-- The mark that a line leaves is its event, at its first token. -/
lemma ofTokens?_eq_blockEvent? (tokens : List Token) :
    BlockMark.ofTokens? tokens =
      (blockEvent? tokens).map fun mark =>
        (mark, (tokens.head?.map Token.column).getD 0) := by
  cases tokens with
  | nil => rfl
  | cons first rest =>
      obtain ⟨kind, lexeme, column⟩ := first
      cases kind with
      | keyword keyword => cases keyword <;> cases rest <;> rfl
      | _ => cases rest <;> rfl

/-! ### The visits of the check of nesting -/

namespace Checker

variable {catalogue : Catalogue} {stack : List Frame} {line : TokenLine} {kind : BlockKind}

/-- A line without an event changes nothing. -/
lemma visit_silent (h : blockEvent? line.tokens = none) :
    (blocks stack).visit catalogue (.line line) = (blocks stack, ⟨[], []⟩) := by
  simp [visit, Checker.line, blockLine, ofTokens?_eq_blockEvent?, h]

/-- An opener puts a frame on the stack. -/
lemma visit_opens (h : blockEvent? line.tokens = some (.opens kind)) :
    (blocks stack).visit catalogue (.line line) =
      (blocks (⟨kind, line.start⟩ :: stack),
        ⟨[], [.opened ⟨kind, line.start⟩ (stack.length + 1)]⟩) := by
  simp [visit, Checker.line, blockLine, ofTokens?_eq_blockEvent?, h, BlockStep.take,
    BlockStep.finding?, TokenLine.start]

/-- A closer on the empty stack is a finding. -/
lemma visit_closes_empty (h : blockEvent? line.tokens = some (.closes kind)) :
    (blocks []).visit catalogue (.line line) =
      (blocks [], ⟨[⟨line.start, .stray kind⟩], [.stray kind line.start]⟩) := by
  simp [visit, Checker.line, blockLine, ofTokens?_eq_blockEvent?, h, BlockStep.take,
    BlockStep.finding?, TokenLine.start]

/-- A closer takes a frame of its own kind from the stack. -/
lemma visit_closes_own {frame : Frame}
    (h : blockEvent? line.tokens = some (.closes kind)) (hkind : frame.kind = kind) :
    (blocks (frame :: stack)).visit catalogue (.line line) =
      (blocks stack, ⟨[], [.closed frame line.start]⟩) := by
  simp [visit, Checker.line, blockLine, ofTokens?_eq_blockEvent?, h, BlockStep.take,
    BlockStep.finding?, TokenLine.start, hkind]

/-- A closer takes a frame of another kind from the stack too, and that is a
finding. -/
lemma visit_closes_other {frame : Frame}
    (h : blockEvent? line.tokens = some (.closes kind)) (hkind : frame.kind ≠ kind) :
    (blocks (frame :: stack)).visit catalogue (.line line) =
      (blocks stack,
        ⟨[⟨line.start, .mismatched kind frame.kind frame.openedAt.line⟩],
          [.mismatched frame kind line.start]⟩) := by
  simp [visit, Checker.line, blockLine, ofTokens?_eq_blockEvent?, h, BlockStep.take,
    BlockStep.finding?, TokenLine.start, hkind]

/-- The end of a script empties the stack, with a finding for each frame. -/
lemma visit_end :
    (blocks stack).visit catalogue .finish = (blocks [], ⟨unclosedFindings stack, []⟩) :=
  rfl

end Checker

/-! ### Balanced words -/

/-- The balanced words: the empty word, and an opener, a balanced word, the closer
of the same kind and another balanced word. -/
inductive Balanced : List BlockMark → Prop where
  | empty : Balanced []
  | block (kind : BlockKind) {inner later : List BlockMark} :
      Balanced inner → Balanced later →
        Balanced (.opens kind :: (inner ++ .closes kind :: later))

/-- A word fits the kinds of the open blocks, the innermost first, if each closer
in it closes the innermost block, which is of its kind, and nothing stays open. -/
def Fits : List BlockKind → List BlockMark → Prop
  | kinds, [] => kinds = []
  | kinds, .opens kind :: rest => Fits (kind :: kinds) rest
  | [], .closes _ :: _ => False
  | kind :: kinds, .closes closer :: rest => kind = closer ∧ Fits kinds rest

/-- The words that close the open blocks one after the other, with balanced words
in between. -/
inductive Segments : List BlockKind → List BlockMark → Prop where
  | last {word : List BlockMark} : Balanced word → Segments [] word
  | close {kind : BlockKind} {kinds : List BlockKind} {word rest : List BlockMark} :
      Balanced word → Segments kinds rest →
        Segments (kind :: kinds) (word ++ .closes kind :: rest)

/-- A block in front of the first segment makes it longer. -/
lemma Segments.block {kind : BlockKind} {kinds : List BlockKind}
    {inner rest : List BlockMark} (hinner : Balanced inner) (hrest : Segments kinds rest) :
    Segments kinds (.opens kind :: (inner ++ .closes kind :: rest)) := by
  cases hrest with
  | last h => exact .last (.block kind hinner h)
  | @close closer kinds word rest hword hrest =>
      have hfirst : Balanced (.opens kind :: (inner ++ .closes kind :: word)) :=
        .block kind hinner hword
      simpa using Segments.close hfirst hrest

/-- A balanced word leaves the open blocks as they are. -/
lemma Balanced.fits_append {word : List BlockMark} (h : Balanced word)
    (kinds : List BlockKind) (rest : List BlockMark) :
    Fits kinds (word ++ rest) ↔ Fits kinds rest := by
  induction h generalizing kinds rest with
  | empty => rfl
  | @block kind inner later _ _ ihInner ihLater =>
      calc Fits kinds (.opens kind :: (inner ++ .closes kind :: later) ++ rest)
          ↔ Fits (kind :: kinds) (inner ++ (.closes kind :: (later ++ rest))) := by
            simp [Fits]
        _ ↔ Fits (kind :: kinds) (.closes kind :: (later ++ rest)) := ihInner _ _
        _ ↔ Fits kinds (later ++ rest) := by simp [Fits]
        _ ↔ Fits kinds rest := ihLater _ _

/-- The words that fit are those that close the open blocks one by one. The
induction is on the word, for all stacks: an opener makes the stack longer. -/
lemma fits_iff_segments {kinds : List BlockKind} {word : List BlockMark} :
    Fits kinds word ↔ Segments kinds word := by
  constructor
  · intro h
    induction word generalizing kinds with
    | nil =>
        cases h
        exact .last .empty
    | cons mark rest ih =>
        cases mark with
        | opens kind =>
            have hopen : Segments (kind :: kinds) rest := ih h
            cases hopen with
            | close hinner hrest => exact .block hinner hrest
        | closes closer =>
            cases kinds with
            | nil => exact h.elim
            | cons kind kinds =>
                obtain ⟨rfl, h⟩ := h
                exact .close .empty (ih h)
  · intro h
    induction h with
    | @last word h => simpa [Fits] using h.fits_append [] []
    | @close kind kinds word rest hword _ ih =>
        rw [hword.fits_append]
        exact ⟨rfl, ih⟩

/-- The grammar and the stack agree on whole scripts. -/
lemma fits_nil_iff_balanced {word : List BlockMark} : Fits [] word ↔ Balanced word := by
  rw [fits_iff_segments]
  constructor
  · rintro ⟨h⟩
    exact h
  · exact .last

/-! ### Silent runs -/

/-- From any stack, the check is silent on the rest of a script exactly when the
events of the rest fit the stack. -/
lemma findings_eq_nil_iff_fits {catalogue : Catalogue} {stack : List Frame}
    {lines : List TokenLine} :
    (Checker.blocks stack).findings catalogue (Visit.script lines) = [] ↔
      Fits (stack.map Frame.kind) (blockEvents lines) := by
  induction lines generalizing stack with
  | nil =>
      simp [Visit.script, Checker.visit_end, unclosedFindings, blockEvents, Fits]
  | cons line rest ih =>
      have hscript : Visit.script (line :: rest) = .line line :: Visit.script rest := rfl
      rw [hscript, Checker.findings_cons]
      cases hevent : blockEvent? line.tokens with
      | none =>
          have hword : blockEvents (line :: rest) = blockEvents rest := by
            simp [blockEvents, hevent]
          rw [Checker.visit_silent hevent, hword, ← ih, List.nil_append]
      | some mark =>
          have hword : blockEvents (line :: rest) = mark :: blockEvents rest := by
            simp [blockEvents, hevent]
          rw [hword]
          cases mark with
          | opens kind =>
              rw [Checker.visit_opens hevent, List.nil_append, ih]
              rfl
          | closes kind =>
              cases stack with
              | nil =>
                  rw [Checker.visit_closes_empty hevent]
                  simp [Fits]
              | cons frame outer =>
                  by_cases hkind : frame.kind = kind
                  · rw [Checker.visit_closes_own hevent hkind, List.nil_append, ih]
                    simp [Fits, hkind]
                  · rw [Checker.visit_closes_other hevent hkind]
                    simp [Fits, hkind]

/-- The check of nesting finds nothing in a script exactly when its events are
balanced. -/
lemma findings_eq_nil_iff_balanced {catalogue : Catalogue} {lines : List TokenLine} :
    (Checker.blocks []).findings catalogue (Visit.script lines) = [] ↔
      Balanced (blockEvents lines) :=
  findings_eq_nil_iff_fits.trans fits_nil_iff_balanced

/-- **Well-nested scripts**: told the lines of a script in order and then its end,
the check of nesting emits no issue exactly when the events of the lines form a
balanced word. -/
theorem silent_iff_balanced (catalogue : Catalogue) (lines : List TokenLine) :
    ((Checker.blocks []).findings catalogue (lines.map .line ++ [.finish])).map
        Issue.ofFinding = [] ↔
      Balanced (lines.filterMap fun line => blockEvent? line.tokens) := by
  rw [List.map_eq_nil_iff]
  exact findings_eq_nil_iff_balanced

end ScriptLint
