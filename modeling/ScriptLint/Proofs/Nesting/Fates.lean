import Mathlib
import ScriptLint.Proofs.Nesting.Ledger

/-!
The fates of the frames of the check of nesting.

* `notesAt`, `issuesAt`: what the check says at a visit. The lemmas
  `issuesAt_closes_own` to `issuesAt_finish` give it for every sort of visit, from
  the ledger.
* `Fate`, `HasFate`: on the stack, popped by its own closer, consumed by another
  closer, or drained by an end of script; each with the issues of that visit.
  `existsUnique_fate` is the law of the frames.
* `mem_issuesAt`: an issue belongs to a frame that is consumed or drained, or to a
  closer on the empty stack.
* `LinesIncrease`: the lines come in the order of their numbers; then a line number
  stands for at most one frame.
* `FramesAccounted`, `frames_accounted`: all of this for every run.
-/

namespace ScriptLint

/-! ### The words of the check -/

/-- The issue on a closer that takes a frame of another kind away. -/
def mismatchIssue (closer : BlockKind) (place : Position) (frame : Frame) : Issue where
  place := place
  message :=
    Problem.quoted closer.closer.word ++ " does not match " ++
      Problem.quoted frame.kind.opener.word ++ " opened at line " ++
        toString frame.openedAt.line
  severity := .error
  code := .unmatchedEnd closer

/-- The issue on a closer that finds no open block. -/
def strayIssue (closer : BlockKind) (place : Position) : Issue where
  place := place
  message :=
    Problem.quoted closer.closer.word ++ " without matching " ++
      Problem.quoted closer.opener.word
  severity := .error
  code := .unmatchedEnd closer

/-- The issue on a frame that an end of script finds on the stack. -/
def unclosedIssue (frame : Frame) : Issue where
  place := frame.openedAt
  message :=
    Problem.quoted frame.kind.opener.word ++ " opened at line " ++
      toString frame.openedAt.line ++ " is never closed with " ++
        Problem.quoted frame.kind.closer.word
  severity := .error
  code := .unclosedControl

section Run

variable (catalogue : Catalogue) (visits : List Visit)

/-- What the check says at the visit with this number. -/
def notesAt (number : Nat) : Notes :=
  match visits[number]? with
  | none => Notes.none
  | some visit =>
    (((Checker.blocks []).after catalogue (visits.take number)).visit catalogue visit).2

/-- The issues of the visit with this number. -/
def issuesAt (number : Nat) : List Issue :=
  (notesAt catalogue visits number).findings.map Issue.ofFinding

/-- The ledger is the stack of the check, with numbers. -/
lemma after_take_eq_heldAt (moment : Nat) :
    (Checker.blocks []).after catalogue (visits.take moment) =
      .blocks ((heldAt visits moment).map Held.frame) := by
  induction moment with
  | zero => rfl
  | succ moment ih =>
      rw [List.take_add_one, Checker.after_append, ih]
      cases hvisit : visits[moment]? with
      | none => simp [heldAt, hvisit]
      | some visit =>
          rw [heldAt_succ hvisit]
          simp only [Option.toList_some, Checker.after_cons, Checker.after_nil]
          cases visit with
          | finish => rfl
          | line line =>
              cases hevent : blockEvent? line.tokens with
              | none => simp [Checker.visit_silent hevent, Held.next, hevent]
              | some mark =>
                  cases mark with
                  | opens kind => simp [Checker.visit_opens hevent, Held.next, hevent]
                  | closes kind =>
                      cases hheld : heldAt visits moment with
                      | nil => simp [Checker.visit_closes_empty hevent, Held.next, hevent]
                      | cons top outer =>
                          by_cases hkind : top.frame.kind = kind
                          · simp [Checker.visit_closes_own hevent hkind, Held.next, hevent]
                          · simp [Checker.visit_closes_other hevent hkind, Held.next, hevent]

variable {visits} {number : Nat}

lemma notesAt_eq {visit : Visit} (h : visits[number]? = some visit) :
    notesAt catalogue visits number =
      ((Checker.blocks ((heldAt visits number).map Held.frame)).visit catalogue visit).2 := by
  rw [notesAt, h, ← after_take_eq_heldAt catalogue]

/-- A push is traced with the depth of the stack, and has no issue. -/
lemma notesAt_opens {frame : Frame} (h : Pushes visits number frame) :
    notesAt catalogue visits number =
      ⟨[], [.opened frame (heldAt visits (number + 1)).length]⟩ := by
  obtain ⟨line, kind, hvisit, hevent, rfl⟩ := h
  rw [notesAt_eq catalogue hvisit, Checker.visit_opens hevent, heldAt_opens hvisit hevent]
  simp

/-- A closer of the kind of the innermost frame has no issue. -/
lemma issuesAt_closes_own {held : Held} {place : Position}
    (h : Closes visits number held.frame.kind place)
    (hhead : (heldAt visits number).head? = some held) :
    issuesAt catalogue visits number = [] := by
  obtain ⟨line, hvisit, hevent, rfl⟩ := h
  obtain ⟨outer, hheld⟩ := List.head?_eq_some_iff.mp hhead
  rw [issuesAt, notesAt_eq catalogue hvisit, hheld, List.map_cons,
    Checker.visit_closes_own hevent rfl]
  rfl

/-- A closer of another kind has one issue, which names the frame. -/
lemma issuesAt_closes_other {held : Held} {kind : BlockKind} {place : Position}
    (h : Closes visits number kind place)
    (hhead : (heldAt visits number).head? = some held) (hkind : kind ≠ held.frame.kind) :
    issuesAt catalogue visits number = [mismatchIssue kind place held.frame] := by
  obtain ⟨line, hvisit, hevent, rfl⟩ := h
  obtain ⟨outer, hheld⟩ := List.head?_eq_some_iff.mp hhead
  rw [issuesAt, notesAt_eq catalogue hvisit, hheld, List.map_cons,
    Checker.visit_closes_other hevent (Ne.symm hkind)]
  rfl

/-- A closer on the empty stack has one issue. -/
lemma issuesAt_closes_empty {kind : BlockKind} {place : Position}
    (h : Closes visits number kind place) (hempty : heldAt visits number = []) :
    issuesAt catalogue visits number = [strayIssue kind place] := by
  obtain ⟨line, hvisit, hevent, rfl⟩ := h
  rw [issuesAt, notesAt_eq catalogue hvisit, hempty, List.map_nil,
    Checker.visit_closes_empty hevent]
  rfl

/-- An end of script has one issue for each frame, the outermost first. -/
lemma issuesAt_finish (h : visits[number]? = some .finish) :
    issuesAt catalogue visits number =
      (heldAt visits number).reverse.map fun held => unclosedIssue held.frame := by
  rw [issuesAt, notesAt_eq catalogue h, Checker.visit_end, unclosedFindings,
    ← List.map_reverse, List.map_map, List.map_map]
  rfl

/-- A visit that does not close and does not end the script has no issue. -/
lemma issuesAt_eq_nil (hclose : ∀ kind place, ¬ Closes visits number kind place)
    (hfinish : visits[number]? ≠ some .finish) : issuesAt catalogue visits number = [] := by
  cases hvisit : visits[number]? with
  | none =>
      rw [issuesAt, notesAt, hvisit]
      rfl
  | some visit =>
      cases visit with
      | finish => exact absurd hvisit hfinish
      | line line =>
          rw [issuesAt, notesAt_eq catalogue hvisit]
          cases hevent : blockEvent? line.tokens with
          | none =>
              rw [Checker.visit_silent hevent]
              rfl
          | some mark =>
              cases mark with
              | opens kind =>
                  rw [Checker.visit_opens hevent]
                  rfl
              | closes kind => exact absurd ⟨line, hvisit, hevent, rfl⟩ (hclose kind line.start)

end Run

/-! ### Fates -/

/-- What has become of a pushed frame, with the number of the visit that did it. -/
inductive Fate where
  | onStack
  | popped (visit : Nat)
  | consumed (visit : Nat)
  | drained (visit : Nat)
deriving DecidableEq, Repr

/-- After `moment` visits, the frame has this fate. -/
inductive HasFate (catalogue : Catalogue) (visits : List Visit) (moment : Nat)
    (held : Held) : Fate → Prop where
  /-- It is still on the stack. -/
  | onStack (on_ledger : held ∈ heldAt visits moment) :
      HasFate catalogue visits moment held .onStack
  /-- It was the innermost frame at a later closer of its own kind, which has no
  issue. -/
  | popped {visit : Nat} {place : Position} (later : held.pushedAt < visit)
      (past : visit < moment) (innermost : (heldAt visits visit).head? = some held)
      (closer : Closes visits visit held.frame.kind place)
      (silent : issuesAt catalogue visits visit = []) :
      HasFate catalogue visits moment held (.popped visit)
  /-- It was the innermost frame at a later closer of another kind, whose only
  issue names it. -/
  | consumed {visit : Nat} {kind : BlockKind} {place : Position}
      (later : held.pushedAt < visit) (past : visit < moment)
      (innermost : (heldAt visits visit).head? = some held)
      (closer : Closes visits visit kind place) (other : kind ≠ held.frame.kind)
      (reported : issuesAt catalogue visits visit = [mismatchIssue kind place held.frame]) :
      HasFate catalogue visits moment held (.consumed visit)
  /-- It was on the stack, once, at a later end of script, which has one issue for
  each frame. -/
  | drained {visit : Nat} (later : held.pushedAt < visit) (past : visit < moment)
      (once : (heldAt visits visit).count held = 1)
      (finish : visits[visit]? = some .finish)
      (reported : issuesAt catalogue visits visit =
        (heldAt visits visit).reverse.map fun held => unclosedIssue held.frame) :
      HasFate catalogue visits moment held (.drained visit)

section Fates

variable {catalogue : Catalogue} {visits : List Visit} {moment number : Nat} {held : Held}

/-- The visit of a fate is the one at which the frame leaves the ledger. -/
lemma HasFate.leaves {fate : Fate} (h : HasFate catalogue visits moment held fate) :
    (fate = .onStack ∧ held ∈ heldAt visits moment) ∨
      ∃ visit < moment, Leaves visits held visit ∧
        (fate = .popped visit ∨ fate = .consumed visit ∨ fate = .drained visit) := by
  cases h with
  | onStack hmem => exact .inl ⟨rfl, hmem⟩
  | popped _ past innermost closer _ =>
      exact .inr ⟨_, past, leaves_of_closes closer innermost, .inl rfl⟩
  | consumed _ past innermost closer _ _ =>
      exact .inr ⟨_, past, leaves_of_closes closer innermost, .inr (.inl rfl)⟩
  | drained _ past once finish _ =>
      have hmem := List.count_pos_iff.mp (once ▸ Nat.one_pos)
      exact .inr ⟨_, past, leaves_of_finish finish hmem, .inr (.inr rfl)⟩

lemma Closes.kind_unique {kind kind' : BlockKind} {place place' : Position}
    (h : Closes visits number kind place) (h' : Closes visits number kind' place') :
    kind = kind' := by
  obtain ⟨line, hvisit, hevent, _⟩ := h
  obtain ⟨line', hvisit', hevent', _⟩ := h'
  simp only [hvisit, Option.some.injEq, Visit.line.injEq] at hvisit'
  subst hvisit'
  simpa [hevent] using hevent'

lemma Closes.ne_finish {kind : BlockKind} {place : Position}
    (h : Closes visits number kind place) : visits[number]? ≠ some .finish := by
  obtain ⟨line, hvisit, _⟩ := h
  simp [hvisit]

/-- A frame that leaves the ledger has one of the three fates that end it. -/
lemma Leaves.exists_fate (h : Leaves visits held number) (hlt : number < moment) :
    ∃ fate, HasFate catalogue visits moment held fate := by
  have hlater := (pushes_of_mem_heldAt h.1).1
  rcases h.cases with ⟨kind, place, hclose, hhead⟩ | hfinish
  · by_cases hkind : kind = held.frame.kind
    · subst hkind
      exact ⟨_, .popped hlater hlt hhead hclose (issuesAt_closes_own catalogue hclose hhead)⟩
    · exact ⟨_, .consumed hlater hlt hhead hclose hkind
        (issuesAt_closes_other catalogue hclose hhead hkind)⟩
  · have hcount := List.count_eq_one_of_mem (nodup_heldAt visits number) h.1
    exact ⟨_, .drained hlater hlt hcount hfinish (issuesAt_finish catalogue hfinish)⟩

/-- The fates that end a frame exclude each other at one visit. -/
lemma HasFate.unique_at {fate fate' : Fate}
    (h : HasFate catalogue visits moment held fate)
    (h' : HasFate catalogue visits moment held fate') {visit : Nat}
    (hfate : fate = .popped visit ∨ fate = .consumed visit ∨ fate = .drained visit)
    (hfate' : fate' = .popped visit ∨ fate' = .consumed visit ∨ fate' = .drained visit) :
    fate = fate' := by
  rcases hfate with rfl | rfl | rfl <;> rcases hfate' with rfl | rfl | rfl
  · rfl
  · cases h with | popped _ _ _ closer _ =>
    cases h' with | consumed _ _ _ closer' other _ =>
    exact absurd (closer'.kind_unique closer) other
  · cases h with | popped _ _ _ closer _ =>
    cases h' with | drained _ _ _ finish _ =>
    exact absurd finish closer.ne_finish
  · cases h with | consumed _ _ _ closer other _ =>
    cases h' with | popped _ _ _ closer' _ =>
    exact absurd (closer.kind_unique closer') other
  · rfl
  · cases h with | consumed _ _ _ closer _ _ =>
    cases h' with | drained _ _ _ finish _ =>
    exact absurd finish closer.ne_finish
  · cases h with | drained _ _ _ finish _ =>
    cases h' with | popped _ _ _ closer _ =>
    exact absurd finish closer.ne_finish
  · cases h with | drained _ _ _ finish _ =>
    cases h' with | consumed _ _ _ closer _ _ =>
    exact absurd finish closer.ne_finish
  · rfl

/-- Two fates of one frame at one moment are the same. -/
lemma HasFate.unique {fate fate' : Fate} (h : HasFate catalogue visits moment held fate)
    (h' : HasFate catalogue visits moment held fate') : fate = fate' := by
  rcases h.leaves with ⟨rfl, hmem⟩ | ⟨visit, hlt, hleaves, hfate⟩ <;>
    rcases h'.leaves with ⟨rfl, hmem'⟩ | ⟨visit', hlt', hleaves', hfate'⟩
  · rfl
  · exact absurd hmem (hleaves'.not_mem hlt')
  · exact absurd hmem' (hleaves.not_mem hlt)
  · have hvisit := hleaves.unique hleaves'
    subst hvisit
    exact h.unique_at h' hfate hfate'

/-- **The law of the frames**: a pushed frame has exactly one fate at every later
moment. -/
lemma existsUnique_fate {frame : Frame} (hpush : Pushes visits number frame)
    (hlt : number < moment) :
    ∃! fate, HasFate catalogue visits moment ⟨number, frame⟩ fate := by
  have hexists : ∃ fate, HasFate catalogue visits moment ⟨number, frame⟩ fate := by
    rcases mem_heldAt_or_leaves hpush hlt with hmem | ⟨visit, hvisit, hleaves⟩
    · exact ⟨.onStack, .onStack hmem⟩
    · exact hleaves.exists_fate hvisit
  obtain ⟨fate, hfate⟩ := hexists
  exact ⟨fate, hfate, fun other hother => hother.unique hfate⟩

/-- Every issue tells of a frame that was consumed or drained at that visit, or of
a closer on the empty stack. -/
lemma mem_issuesAt {issue : Issue} (h : issue ∈ issuesAt catalogue visits number) :
    (∃ held kind place, HasFate catalogue visits (number + 1) held (.consumed number) ∧
      Closes visits number kind place ∧ issue = mismatchIssue kind place held.frame) ∨
    (∃ held, HasFate catalogue visits (number + 1) held (.drained number) ∧
      issue = unclosedIssue held.frame) ∨
    (∃ kind place, Closes visits number kind place ∧ heldAt visits number = [] ∧
      issue = strayIssue kind place) := by
  by_cases hclose : ∃ kind place, Closes visits number kind place
  · obtain ⟨kind, place, hclose⟩ := hclose
    cases hheld : heldAt visits number with
    | nil =>
        rw [issuesAt_closes_empty catalogue hclose hheld, List.mem_singleton] at h
        exact .inr (.inr ⟨kind, place, hclose, rfl, h⟩)
    | cons held outer =>
        have hhead : (heldAt visits number).head? = some held := by rw [hheld, List.head?_cons]
        have hlater := (pushes_of_mem_heldAt (List.mem_of_mem_head? hhead)).1
        by_cases hkind : kind = held.frame.kind
        · subst hkind
          simp [issuesAt_closes_own catalogue hclose hhead] at h
        · have hissues := issuesAt_closes_other catalogue hclose hhead hkind
          rw [hissues, List.mem_singleton] at h
          exact .inl ⟨held, kind, place,
            .consumed hlater (Nat.lt_succ_self _) hhead hclose hkind hissues, hclose, h⟩
  · by_cases hfinish : visits[number]? = some .finish
    · have hissues := issuesAt_finish catalogue hfinish
      rw [hissues, List.mem_map] at h
      obtain ⟨held, hmem, rfl⟩ := h
      rw [List.mem_reverse] at hmem
      have hcount := List.count_eq_one_of_mem (nodup_heldAt visits number) hmem
      exact .inr (.inl ⟨held, .drained (pushes_of_mem_heldAt hmem).1 (Nat.lt_succ_self _)
        hcount hfinish hissues, rfl⟩)
    · rw [issuesAt_eq_nil catalogue (fun kind place h => hclose ⟨kind, place, h⟩) hfinish] at h
      simp at h

/-- The frames with no end yet are those of the ledger. -/
lemma ncard_onStack (visits : List Visit) (moment : Nat) :
    {held | Pushes visits held.pushedAt held.frame ∧
      HasFate catalogue visits moment held .onStack}.ncard = (heldAt visits moment).length := by
  have hset : {held | Pushes visits held.pushedAt held.frame ∧
      HasFate catalogue visits moment held .onStack} =
        ((heldAt visits moment).toFinset : Set Held) := by
    ext held
    rw [Finset.mem_coe, List.mem_toFinset]
    constructor
    · rintro ⟨_, ⟨hmem⟩⟩
      exact hmem
    · exact fun hmem => ⟨(pushes_of_mem_heldAt hmem).2, .onStack hmem⟩
  rw [hset, Set.ncard_coe_finset, List.toFinset_card_of_nodup (nodup_heldAt visits moment)]

end Fates

/-! ### Runs through a script in order -/

/-- The lines come in the order of their numbers, as those of a script do. -/
def LinesIncrease (visits : List Visit) : Prop :=
  ∀ (early late : Nat) (line line' : TokenLine), early < late →
    visits[early]? = some (.line line) → visits[late]? = some (.line line') →
      line.number < line'.number

section InOrder

variable {catalogue : Catalogue} {visits : List Visit}

/-- A frame that is pushed later was opened on a later line. -/
lemma LinesIncrease.openedAt_lt (h : LinesIncrease visits) {early late : Nat}
    {frame frame' : Frame} (hlt : early < late) (hearly : Pushes visits early frame)
    (hlate : Pushes visits late frame') : frame.openedAt.line < frame'.openedAt.line := by
  obtain ⟨line, kind, hvisit, _, rfl⟩ := hearly
  obtain ⟨line', kind', hvisit', _, rfl⟩ := hlate
  exact h early late line line' hlt hvisit hvisit'

/-- The lines of the frames on the stack decrease from its top to its bottom. -/
lemma LinesIncrease.pairwise_heldAt (h : LinesIncrease visits) (moment : Nat) :
    (heldAt visits moment).Pairwise fun above below =>
      below.frame.openedAt.line < above.frame.openedAt.line := by
  refine (ScriptLint.pairwise_heldAt visits moment).imp_of_mem ?_
  intro above below habove hbelow hlt
  exact h.openedAt_lt hlt (pushes_of_mem_heldAt hbelow).2 (pushes_of_mem_heldAt habove).2

/-- The line of an opener stands for one frame only. -/
lemma LinesIncrease.push_unique (h : LinesIncrease visits) {number number' : Nat}
    {frame frame' : Frame} (hpush : Pushes visits number frame)
    (hpush' : Pushes visits number' frame')
    (hline : frame.openedAt.line = frame'.openedAt.line) : number = number' := by
  rcases Nat.lt_trichotomy number number' with hlt | rfl | hlt
  · have := h.openedAt_lt hlt hpush hpush'
    omega
  · rfl
  · have := h.openedAt_lt hlt hpush' hpush
    omega

/-- A closer stands on a later line than the frame that it takes away. -/
lemma LinesIncrease.openedAt_lt_closer (h : LinesIncrease visits) {held : Held}
    {number : Nat} {kind : BlockKind} {place : Position}
    (hmem : held ∈ heldAt visits number) (hclose : Closes visits number kind place) :
    held.frame.openedAt.line < place.line := by
  obtain ⟨hlt, line, kind', hvisit, _, hframe⟩ := pushes_of_mem_heldAt hmem
  obtain ⟨line', hvisit', _, rfl⟩ := hclose
  rw [hframe]
  exact h _ _ line line' hlt hvisit hvisit'

/-- The issues of an end of script come in the order of their lines. -/
lemma LinesIncrease.pairwise_issuesAt (h : LinesIncrease visits) {number : Nat}
    (hfinish : visits[number]? = some .finish) :
    (issuesAt catalogue visits number).Pairwise fun a b => a.place.line < b.place.line := by
  rw [issuesAt_finish catalogue hfinish, List.pairwise_map, List.pairwise_reverse]
  exact h.pairwise_heldAt number

end InOrder

/-! ### The law -/

/-- The frames of a run are all accounted for. -/
structure FramesAccounted (catalogue : Catalogue) (visits : List Visit) : Prop where
  /-- The ledger is the stack of the check, with numbers. -/
  ledger_is_stack : ∀ moment, (Checker.blocks []).after catalogue (visits.take moment) =
    .blocks ((heldAt visits moment).map Held.frame)
  /-- Each frame of the ledger was pushed by the earlier visit of its number. -/
  ledger_is_pushed : ∀ moment, ∀ held ∈ heldAt visits moment,
    held.pushedAt < moment ∧ Pushes visits held.pushedAt held.frame
  /-- A pushed frame has exactly one fate at every later moment. -/
  one_fate : ∀ number frame, Pushes visits number frame → ∀ moment, number < moment →
    ∃! fate, HasFate catalogue visits moment ⟨number, frame⟩ fate
  /-- A closer on the empty stack has exactly one issue and leaves the stack empty. -/
  stray_closer : ∀ number kind place, Closes visits number kind place →
    heldAt visits number = [] →
      issuesAt catalogue visits number = [strayIssue kind place] ∧
        heldAt visits (number + 1) = []
  /-- There are no other issues than those of consumed and drained frames and of
  closers on the empty stack. -/
  no_other_issue : ∀ number, ∀ issue ∈ issuesAt catalogue visits number,
    (∃ held kind place, HasFate catalogue visits (number + 1) held (.consumed number) ∧
      Closes visits number kind place ∧ issue = mismatchIssue kind place held.frame) ∨
    (∃ held, HasFate catalogue visits (number + 1) held (.drained number) ∧
      issue = unclosedIssue held.frame) ∨
    (∃ kind place, Closes visits number kind place ∧ heldAt visits number = [] ∧
      issue = strayIssue kind place)
  /-- A push is traced with the number of frames that are pushed and have no end
  yet. -/
  traced_depth : ∀ number frame, Pushes visits number frame →
    (notesAt catalogue visits number).steps.filterMap BlockStep.event? =
      [.blockOpened frame {held | Pushes visits held.pushedAt held.frame ∧
        HasFate catalogue visits (number + 1) held .onStack}.ncard]
  /-- If the lines come in order, the opening lines increase from the bottom of the
  stack to its top. -/
  lines_on_stack : LinesIncrease visits → ∀ moment,
    (heldAt visits moment).Pairwise fun above below =>
      below.frame.openedAt.line < above.frame.openedAt.line
  /-- If the lines come in order, an opening line names one frame only. -/
  line_names_frame : LinesIncrease visits → ∀ number number' frame frame',
    Pushes visits number frame → Pushes visits number' frame' →
      frame.openedAt.line = frame'.openedAt.line → number = number'
  /-- If the lines come in order, the line named at a closer is an earlier one. -/
  line_before_closer : LinesIncrease visits → ∀ number kind place, ∀ held ∈ heldAt visits number,
    Closes visits number kind place → held.frame.openedAt.line < place.line
  /-- If the lines come in order, so do the issues of an end of script. -/
  unclosed_in_order : LinesIncrease visits → ∀ number, visits[number]? = some .finish →
    (issuesAt catalogue visits number).Pairwise fun a b => a.place.line < b.place.line

/-- **No frame is lost or reported twice**: in every run of the check of nesting,
with any lines and ends of script in any order, the frames are all accounted for. -/
theorem frames_accounted (catalogue : Catalogue) (visits : List Visit) :
    FramesAccounted catalogue visits where
  ledger_is_stack := after_take_eq_heldAt catalogue visits
  ledger_is_pushed _ _ h := pushes_of_mem_heldAt h
  one_fate _ _ hpush _ hlt := existsUnique_fate hpush hlt
  stray_closer number kind place hclose hempty := by
    refine ⟨issuesAt_closes_empty catalogue hclose hempty, ?_⟩
    rw [heldAt_closes hclose, hempty, List.tail_nil]
  no_other_issue _ _ h := mem_issuesAt h
  traced_depth number frame hpush := by
    rw [notesAt_opens catalogue hpush, ncard_onStack]
    rfl
  lines_on_stack h := h.pairwise_heldAt
  line_names_frame h _ _ _ _ hpush hpush' hline := h.push_unique hpush hpush' hline
  line_before_closer h _ _ _ _ hmem hclose := h.openedAt_lt_closer hmem hclose
  unclosed_in_order h _ hfinish := h.pairwise_issuesAt hfinish

end ScriptLint
