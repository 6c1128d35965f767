import Mathlib
import ScriptLint.Proofs.Nesting.Balance

/-!
The ledger of the check of nesting.

The check is visited any number of times, with any lines and any ends of script in
any order. A ledger runs beside it, in which each frame on the stack carries the
number of the visit that put it there, so that equal frames are told apart.

* `Held`, `heldAt`: the ledger. The numbers decrease from the top
  (`pairwise_heldAt`), and each of its frames was pushed by the visit of that
  number (`pushes_of_mem_heldAt`).
* `Leaves`: the visit at which a frame leaves the ledger. There is at most one
  (`Leaves.unique`), because no visit brings a frame back
  (`not_mem_heldAt_of_le`).
* `mem_heldAt_or_leaves`: a pushed frame is on the ledger until it leaves.
-/

namespace ScriptLint

/-! ### The ledger -/

/-- A frame on the stack, with the number of the visit that put it there. -/
structure Held where
  pushedAt : Nat
  frame : Frame
deriving DecidableEq, Repr

/-- The ledger after the visit with this number: an opener adds a frame, a closer
of any kind takes the last one away, the end of script all. -/
def Held.next (number : Nat) (ledger : List Held) : Visit → List Held
  | .finish => []
  | .line line =>
    match blockEvent? line.tokens with
    | none => ledger
    | some (.opens kind) => ⟨number, ⟨kind, line.start⟩⟩ :: ledger
    | some (.closes _) => ledger.tail

/-- The frames on the stack after this many visits, the innermost first. -/
def heldAt (visits : List Visit) : Nat → List Held
  | 0 => []
  | moment + 1 =>
    match visits[moment]? with
    | none => heldAt visits moment
    | some visit => Held.next moment (heldAt visits moment) visit

/-- The visit with this number pushes the frame. -/
def Pushes (visits : List Visit) (number : Nat) (frame : Frame) : Prop :=
  ∃ line kind, visits[number]? = some (.line line) ∧
    blockEvent? line.tokens = some (.opens kind) ∧ frame = ⟨kind, line.start⟩

/-- The visit with this number is a closer of the kind, at the place. -/
def Closes (visits : List Visit) (number : Nat) (kind : BlockKind) (place : Position) :
    Prop :=
  ∃ line, visits[number]? = some (.line line) ∧
    blockEvent? line.tokens = some (.closes kind) ∧ place = line.start

section Run

variable {visits : List Visit} {moment number : Nat} {held : Held}

lemma heldAt_succ {visit : Visit} (h : visits[moment]? = some visit) :
    heldAt visits (moment + 1) = Held.next moment (heldAt visits moment) visit := by
  rw [heldAt, h]

/-- An opener adds a frame. -/
lemma heldAt_opens {line : TokenLine} {kind : BlockKind}
    (h : visits[moment]? = some (.line line))
    (hevent : blockEvent? line.tokens = some (.opens kind)) :
    heldAt visits (moment + 1) = ⟨moment, ⟨kind, line.start⟩⟩ :: heldAt visits moment := by
  rw [heldAt_succ h, Held.next, hevent]

/-- A closer takes the last frame away. -/
lemma heldAt_closes {kind : BlockKind} {place : Position}
    (h : Closes visits moment kind place) :
    heldAt visits (moment + 1) = (heldAt visits moment).tail := by
  obtain ⟨line, hvisit, hevent, _⟩ := h
  rw [heldAt_succ hvisit, Held.next, hevent]

/-- The end of script takes all frames away. -/
lemma heldAt_finish (h : visits[moment]? = some .finish) :
    heldAt visits (moment + 1) = [] := by
  rw [heldAt_succ h, Held.next]

/-- What a visit can do to the ledger: nothing, push a frame, close the innermost
block, or end the script. -/
lemma heldAt_succ_cases (visits : List Visit) (moment : Nat) :
    heldAt visits (moment + 1) = heldAt visits moment ∨
      (∃ frame, Pushes visits moment frame ∧
        heldAt visits (moment + 1) = ⟨moment, frame⟩ :: heldAt visits moment) ∨
      (∃ kind place, Closes visits moment kind place ∧
        heldAt visits (moment + 1) = (heldAt visits moment).tail) ∨
      (visits[moment]? = some .finish ∧ heldAt visits (moment + 1) = []) := by
  cases hvisit : visits[moment]? with
  | none =>
      left
      rw [heldAt, hvisit]
  | some visit =>
      cases visit with
      | finish => exact .inr (.inr (.inr ⟨rfl, heldAt_finish hvisit⟩))
      | line line =>
          cases hevent : blockEvent? line.tokens with
          | none =>
              left
              rw [heldAt_succ hvisit, Held.next, hevent]
          | some mark =>
              cases mark with
              | opens kind =>
                  exact .inr (.inl ⟨⟨kind, line.start⟩, ⟨line, kind, hvisit, hevent, rfl⟩,
                    heldAt_opens hvisit hevent⟩)
              | closes kind =>
                  have hcloses : Closes visits moment kind line.start :=
                    ⟨line, hvisit, hevent, rfl⟩
                  exact .inr (.inr (.inl ⟨kind, line.start, hcloses, heldAt_closes hcloses⟩))

/-- A frame of the ledger was pushed by the visit whose number it carries. -/
lemma pushes_of_mem_heldAt (h : held ∈ heldAt visits moment) :
    held.pushedAt < moment ∧ Pushes visits held.pushedAt held.frame := by
  induction moment with
  | zero => simp [heldAt] at h
  | succ moment ih =>
      have keep (h : held ∈ heldAt visits moment) :
          held.pushedAt < moment + 1 ∧ Pushes visits held.pushedAt held.frame :=
        ⟨Nat.lt_succ_of_lt (ih h).1, (ih h).2⟩
      obtain heq | ⟨frame, hpush, heq⟩ | ⟨_, _, _, heq⟩ | ⟨_, heq⟩ :=
        heldAt_succ_cases visits moment
      · exact keep (heq ▸ h)
      · rw [heq, List.mem_cons] at h
        rcases h with rfl | h
        · exact ⟨Nat.lt_succ_self _, hpush⟩
        · exact keep h
      · exact keep (List.mem_of_mem_tail (heq ▸ h))
      · simp [heq] at h

/-- A pushed frame is on the ledger right after its visit. -/
lemma mem_heldAt_of_pushes {frame : Frame} (h : Pushes visits number frame) :
    ⟨number, frame⟩ ∈ heldAt visits (number + 1) := by
  obtain ⟨line, kind, hvisit, hevent, rfl⟩ := h
  rw [heldAt_opens hvisit hevent]
  exact List.mem_cons_self

/-- The numbers of the ledger decrease from the top of the stack to its bottom. -/
lemma pairwise_heldAt (visits : List Visit) (moment : Nat) :
    (heldAt visits moment).Pairwise fun above below => below.pushedAt < above.pushedAt := by
  induction moment with
  | zero => exact .nil
  | succ moment ih =>
      obtain heq | ⟨frame, _, heq⟩ | ⟨_, _, _, heq⟩ | ⟨_, heq⟩ :=
        heldAt_succ_cases visits moment
      · rwa [heq]
      · rw [heq]
        exact .cons (fun below hbelow => (pushes_of_mem_heldAt hbelow).1) ih
      · rw [heq]
        exact ih.sublist (List.tail_sublist _)
      · rw [heq]
        exact .nil

/-- No frame stands twice on the ledger. -/
lemma nodup_heldAt (visits : List Visit) (moment : Nat) : (heldAt visits moment).Nodup :=
  (pairwise_heldAt visits moment).imp fun h heq => by simp [heq] at h

/-! ### Leaving the ledger -/

/-- The frame leaves the ledger at the visit with this number. -/
def Leaves (visits : List Visit) (held : Held) (number : Nat) : Prop :=
  held ∈ heldAt visits number ∧ held ∉ heldAt visits (number + 1)

/-- A frame that is not on the ledger after the visit that may have pushed it never
comes back. -/
lemma not_mem_heldAt_of_le {early late : Nat} (hpush : held.pushedAt < early)
    (h : held ∉ heldAt visits early) (hle : early ≤ late) : held ∉ heldAt visits late := by
  induction late, hle using Nat.le_induction with
  | base => exact h
  | succ late hle ih =>
      obtain heq | ⟨frame, _, heq⟩ | ⟨_, _, _, heq⟩ | ⟨_, heq⟩ :=
        heldAt_succ_cases visits late
      · rwa [heq]
      · rw [heq, List.mem_cons]
        rintro (rfl | hmem)
        · exact absurd hle (Nat.not_le.mpr hpush)
        · exact ih hmem
      · rw [heq]
        exact fun hmem => ih (List.mem_of_mem_tail hmem)
      · simp [heq]

/-- A frame that has left is not on the ledger any more. -/
lemma Leaves.not_mem (h : Leaves visits held number) (hlt : number < moment) :
    held ∉ heldAt visits moment :=
  not_mem_heldAt_of_le (Nat.lt_succ_of_lt (pushes_of_mem_heldAt h.1).1) h.2 hlt

/-- A frame leaves at most once. -/
lemma Leaves.unique {other : Nat} (h : Leaves visits held number)
    (h' : Leaves visits held other) : number = other := by
  rcases Nat.lt_trichotomy number other with hlt | rfl | hlt
  · exact absurd h'.1 (h.not_mem hlt)
  · rfl
  · exact absurd h.1 (h'.not_mem hlt)

/-- The innermost frame leaves at a closer. -/
lemma leaves_of_closes {kind : BlockKind} {place : Position}
    (hclose : Closes visits number kind place)
    (hhead : (heldAt visits number).head? = some held) : Leaves visits held number := by
  obtain ⟨outer, hheld⟩ := List.head?_eq_some_iff.mp hhead
  have hnodup := nodup_heldAt visits number
  rw [hheld, List.nodup_cons] at hnodup
  refine ⟨List.mem_of_mem_head? hhead, ?_⟩
  rw [heldAt_closes hclose, hheld, List.tail_cons]
  exact hnodup.1

/-- All frames leave at an end of script. -/
lemma leaves_of_finish (hfinish : visits[number]? = some .finish)
    (hmem : held ∈ heldAt visits number) : Leaves visits held number :=
  ⟨hmem, by simp [heldAt_finish hfinish]⟩

/-- A frame that leaves is the innermost one at a closer, or any at an end of
script. -/
lemma Leaves.cases (h : Leaves visits held number) :
    (∃ kind place, Closes visits number kind place ∧
      (heldAt visits number).head? = some held) ∨
    visits[number]? = some .finish := by
  obtain ⟨hmem, hnot⟩ := h
  obtain heq | ⟨frame, _, heq⟩ | ⟨kind, place, hclose, heq⟩ | ⟨hfinish, _⟩ :=
    heldAt_succ_cases visits number
  · exact absurd (heq ▸ hmem) hnot
  · rw [heq] at hnot
    exact absurd (List.mem_cons_of_mem _ hmem) hnot
  · left
    refine ⟨kind, place, hclose, ?_⟩
    cases hheld : heldAt visits number with
    | nil => simp [hheld] at hmem
    | cons top outer =>
        rw [heq, hheld, List.tail_cons] at hnot
        rw [hheld, List.mem_cons] at hmem
        rcases hmem with rfl | hmem
        · rfl
        · exact absurd hmem hnot
  · exact .inr hfinish

/-- A pushed frame is on the ledger, or it has left it. -/
lemma mem_heldAt_or_leaves {frame : Frame} (hpush : Pushes visits number frame)
    (hlt : number < moment) :
    ⟨number, frame⟩ ∈ heldAt visits moment ∨
      ∃ visit < moment, Leaves visits ⟨number, frame⟩ visit := by
  induction moment, hlt using Nat.le_induction with
  | base => exact .inl (mem_heldAt_of_pushes hpush)
  | succ moment _ ih =>
      rcases ih with hmem | ⟨visit, hvisit, hleaves⟩
      · by_cases hnext : ⟨number, frame⟩ ∈ heldAt visits (moment + 1)
        · exact .inl hnext
        · exact .inr ⟨moment, Nat.lt_succ_self _, hmem, hnext⟩
      · exact .inr ⟨visit, Nat.lt_succ_of_lt hvisit, hleaves⟩

end Run

end ScriptLint
