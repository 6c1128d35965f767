import Mathlib
import ScriptLint.Proofs.Reading.Literals
import ScriptLint.Proofs.Reading.Regions

/-!
Texts in which no comment begins.

* `CommentFree`: no marker that opens a comment stands where code goes on.
* `CommentFree.siftFrom_eq`: such a text is shown as it is.
* `commentFree_shown`: what is shown of a line is such a text, if no marker holds a blank.
* `Region.not_isComment_of_commentFree`, `Region.not_isComment_of_lines`: the automaton over a
  whole text finds no comment in such lines.
-/

namespace ScriptLint

open Text (isBlank)

/-! ### Where comments could begin -/

/-- No marker that opens a comment stands where code goes on in the text, which starts in this
zone. -/
def CommentFree (markers : Markers) (zone : Zone) (text : List Char) : Prop :=
  ∀ before later, text = before ++ later → zone.after before = .code →
    Markers.standsAt markers.line later = false ∧
      Markers.standsAt markers.blockOpen later = false

section CommentFree

variable {markers : Markers} {zone : Zone} {c : Char} {text before later rest : List Char}

lemma Markers.standsAt_nil (marker : List Char) : standsAt marker [] = false := by
  cases marker <;> rfl

lemma commentFree_nil : CommentFree markers zone [] := by
  intro before later hsplit _
  obtain ⟨_, rfl⟩ := List.append_eq_nil_iff.mp hsplit.symm
  exact ⟨Markers.standsAt_nil _, Markers.standsAt_nil _⟩

/-- No comment begins at the first character, and none behind it. -/
lemma commentFree_cons_iff :
    CommentFree markers zone (c :: rest) ↔
      (zone = .code → Markers.standsAt markers.line (c :: rest) = false ∧
          Markers.standsAt markers.blockOpen (c :: rest) = false) ∧
        CommentFree markers (zone.next c) rest := by
  constructor
  · intro h
    refine ⟨fun hzone => h [] (c :: rest) rfl hzone, fun before later hsplit hcode => ?_⟩
    exact h (c :: before) later (by rw [hsplit, List.cons_append]) hcode
  · rintro ⟨hfirst, hrest⟩ before later hsplit hcode
    cases before with
    | nil =>
        rw [List.nil_append] at hsplit
        exact hsplit ▸ hfirst hcode
    | cons d more =>
        obtain ⟨rfl, hmore⟩ := List.cons.inj hsplit
        exact hrest more later hmore hcode

/-- A part at the start of such a text is one, as a marker that stands in it would stand in the
text. -/
lemma CommentFree.of_append_left (h : CommentFree markers zone (text ++ later)) :
    CommentFree markers zone text := by
  intro before rest hsplit hcode
  have hstands : ∀ marker, Markers.standsAt marker (rest ++ later) = false →
      Markers.standsAt marker rest = false := by
    intro marker hnot
    rw [Bool.eq_false_iff, ne_eq, Markers.standsAt_iff] at hnot ⊢
    exact fun ⟨hne, hprefix⟩ => hnot ⟨hne, hprefix.trans (List.prefix_append _ _)⟩
  obtain ⟨hline, hopen⟩ := h before (rest ++ later) (by rw [hsplit, List.append_assoc]) hcode
  exact ⟨hstands _ hline, hstands _ hopen⟩

/-- A part at the end of such a text is one, from the zone on that is come to before it. -/
lemma CommentFree.of_append_right (h : CommentFree markers zone (before ++ text)) :
    CommentFree markers (zone.after before) text := by
  intro early later hsplit hcode
  refine h (before ++ early) later (by rw [hsplit, List.append_assoc]) ?_
  rw [Zone.after_append]
  exact hcode

/-- No comment begins with a blank. -/
lemma CommentFree.append_blanks (h : CommentFree markers .code text) (hmarkers : markers.Unblank)
    {blanks : List Char} (hblanks : ∀ c ∈ blanks, isBlank c = true) :
    CommentFree markers .code (blanks ++ text) := by
  induction blanks with
  | nil => exact h
  | cons c rest ih =>
      have hc := hblanks c List.mem_cons_self
      obtain ⟨hline, hopen, _⟩ := hmarkers.not_mem hc
      rw [List.cons_append, commentFree_cons_iff,
        Zone.next_code_of_not_quote (not_quote_of_blank hc)]
      exact ⟨fun _ => ⟨Markers.standsAt_cons_of_not_mem hline,
        Markers.standsAt_cons_of_not_mem hopen⟩,
          ih fun d hd => hblanks d (List.mem_cons_of_mem c hd)⟩

/-! ### Sifting -/

/-- Outside comments, every character is kept where no comments are looked for, and comments
are not come to. -/
lemma Zone.step_absent (hzone : zone.uncommented = zone) (c : Char) (rest : List Char) :
    zone.step .absent c rest = some (c, zone.next c) ∧
      (zone.next c).uncommented = zone.next c := by
  obtain ⟨next, hstep, hnext⟩ : ∃ next, (∀ rest, zone.step .absent c rest = some (c, next)) ∧
      next.uncommented = next := by
    cases zone with
    | code =>
        simp only [Zone.step_code_absent]
        split_ifs <;> exact ⟨_, fun _ => rfl, rfl⟩
    | literal quote =>
        simp only [Zone.step]
        split_ifs <;> exact ⟨_, fun _ => rfl, rfl⟩
    | escape quote => exact ⟨_, fun _ => rfl, rfl⟩
    | comment => cases hzone
    | marker opening more => cases hzone
  have heq : zone.next c = next := by rw [Zone.next, hstep]; rfl
  rw [heq]
  exact ⟨hstep rest, hnext⟩

/-- Where no comment begins, a character is read as where no comments are looked for. -/
lemma Zone.step_of_not_standsAt (hzone : zone.uncommented = zone)
    (h : zone = .code → Markers.standsAt markers.line (c :: rest) = false ∧
      Markers.standsAt markers.blockOpen (c :: rest) = false) :
    zone.step markers c rest = zone.step .absent c rest := by
  cases zone with
  | code =>
      obtain ⟨hline, hopen⟩ := h rfl
      rw [Zone.step_code_absent, Zone.step, hline, hopen]
      rfl
  | literal quote => rfl
  | escape quote => rfl
  | comment => cases hzone
  | marker opening more => cases hzone

/-- **Kept text**: a text in which no comment begins is shown as it is. -/
theorem CommentFree.siftFrom_eq (h : CommentFree markers zone text)
    (hzone : zone.uncommented = zone) : siftFrom markers zone text = ⟨text, false⟩ := by
  induction text generalizing zone with
  | nil =>
      rw [siftFrom]
      cases zone with
      | comment => cases hzone
      | _ => rfl
  | cons c rest ih =>
      obtain ⟨hfirst, hrest⟩ := commentFree_cons_iff.mp h
      obtain ⟨hstep, hnext⟩ := Zone.step_absent hzone c rest
      rw [siftFrom, Zone.step_of_not_standsAt hzone hfirst, hstep]
      dsimp only
      rw [ih hrest hnext]

/-- In code, a character that is kept does not begin a comment. -/
lemma not_standsAt_of_step {shown : Char} {next : Zone}
    (hstep : Zone.step markers .code c rest = some (shown, next))
    (hnext : next.uncommented = next) :
    Markers.standsAt markers.line (c :: rest) = false ∧
      Markers.standsAt markers.blockOpen (c :: rest) = false := by
  rw [Zone.step] at hstep
  split_ifs at hstep with hline hopen
  · -- a block marker leads into a comment
    obtain ⟨_, rfl⟩ := Prod.mk.inj (Option.some.inj hstep)
    rw [Zone.uncommented_afterMarker] at hnext
    have hcomment := Zone.stretch_code_afterMarker (markers.blockOpen.length - 1)
    rw [← hnext] at hcomment
    cases hcomment
  all_goals exact ⟨Bool.eq_false_iff.mpr hline, Bool.eq_false_iff.mpr hopen⟩

/-- **Shown text**: where no marker holds a blank, no comment begins in what is shown of a
line. A marker that stood there would have been found in the line, as sifting keeps the
characters that are not blank. The induction is on the line, for every zone. -/
theorem commentFree_shown (hmarkers : markers.Unblank) (zone : Zone) (text : List Char) :
    CommentFree markers zone.uncommented (siftFrom markers zone text).shown := by
  induction text generalizing zone with
  | nil => exact commentFree_nil
  | cons d rest ih =>
      cases hstep : zone.step markers d rest with
      | none =>
          rw [siftFrom, hstep]
          exact commentFree_nil
      | some pair =>
          obtain ⟨shown, next⟩ := pair
          have hshown : (siftFrom markers zone (d :: rest)).shown =
              shown :: (siftFrom markers next rest).shown := by
            rw [siftFrom, hstep]
          have hrest := ih next
          rw [hshown, commentFree_cons_iff]
          rcases Zone.step_cases hstep with
            ⟨rfl, _, hzone, hnext⟩ | ⟨rfl, hzone, hnext, hkept⟩
          · -- no marker begins with the space that stands for a character of a comment
            obtain ⟨hline, hopen, _⟩ := hmarkers.not_mem Text.isBlank_space
            have hspace : Zone.next .code ' ' = .code := Zone.next_code_of_not_quote rfl
            rw [hnext] at hrest
            rw [hzone, hspace]
            exact ⟨fun _ => ⟨Markers.standsAt_cons_of_not_mem hline,
              Markers.standsAt_cons_of_not_mem hopen⟩, hrest⟩
          · have hsame : zone.next shown = next := by rw [Zone.next, hkept]; rfl
            rw [hnext] at hrest
            rw [hzone, hsame]
            refine ⟨?_, hrest⟩
            rintro rfl
            obtain ⟨hline, hopen⟩ := not_standsAt_of_step hstep hnext
            have hnot : ∀ marker, (∀ c ∈ marker, isBlank c = false) →
                Markers.standsAt marker (shown :: rest) = false →
                  Markers.standsAt marker (shown :: (siftFrom markers next rest).shown) =
                    false := by
              intro marker hmarker hnot
              by_contra hstands
              rw [Bool.not_eq_false, ← hshown] at hstands
              have htext : Markers.standsAt marker ((shown :: rest).drop 0) = true :=
                standsAt_of_shown hmarker hstands
              exact Bool.false_ne_true (hnot.symm.trans htext)
            exact ⟨hnot _ hmarkers.line hline, hnot _ hmarkers.blockOpen hopen⟩

end CommentFree

/-! ### The automaton over a whole text -/

/-- The region is a comment of either kind. -/
def Region.IsComment (region : Region) : Prop :=
  region = .lineComment ∨ region = .blockComment

lemma Mark.isComment_iff {mark : Mark} : mark.isComment = true ↔ mark.part.IsComment := by
  rw [Mark.isComment, Bool.or_eq_true, beq_iff_eq, beq_iff_eq, Region.IsComment]

namespace Region

variable {markers : Markers} {region : Region} {c : Char} {line rest : List Char}

lemma not_isComment_code : ¬ code.IsComment := by simp [IsComment]

lemma not_isComment_literal (quote : Char) : ¬ (literal quote).IsComment := by simp [IsComment]

/-- What follows a backslash in a literal, and the character that it protects. -/
lemma commentFree_protected {quote : Char} (hfeed : '\n' ∉ rest)
    (h : CommentFree markers (.escape quote) rest) :
    CommentFree markers (.literal quote) (rest.drop (protectedLength rest)) := by
  cases rest with
  | nil => exact commentFree_nil
  | cons d later =>
      have hd : d ≠ '\n' := fun heq => hfeed (heq ▸ List.mem_cons_self)
      rw [protectedLength, if_neg hd]
      exact (commentFree_cons_iff.mp h).2

/-- A step in a line in which no comment begins reads no part of a comment, and no comment
begins in what follows. -/
lemma move_of_commentFree (h : CommentFree markers region.zone (c :: rest))
    (hregion : ¬ region.IsComment) (hfeed : '\n' ∉ c :: rest) :
    ¬ (region.move markers c rest).part.IsComment ∧
      ¬ (region.move markers c rest).next.IsComment ∧
        CommentFree markers (region.move markers c rest).next.zone
          (rest.drop (region.move markers c rest).more) := by
  obtain ⟨hfirst, hrest⟩ := commentFree_cons_iff.mp h
  rw [List.mem_cons, not_or] at hfeed
  rw [move, if_neg (Ne.symm hfeed.1)]
  cases region with
  | lineComment => exact absurd (.inl rfl) hregion
  | blockComment => exact absurd (.inr rfl) hregion
  | code =>
      obtain ⟨hline, hopen⟩ := hfirst rfl
      rw [moveInLine, hline, hopen, if_neg Bool.false_ne_true, if_neg Bool.false_ne_true]
      split_ifs with hquote
      · rw [zone, Zone.next_code_of_quote hquote] at hrest
        exact ⟨not_isComment_literal c, not_isComment_literal c, hrest⟩
      · rw [zone, Zone.next_code_of_not_quote (Bool.eq_false_iff.mpr hquote)] at hrest
        exact ⟨not_isComment_code, not_isComment_code, hrest⟩
  | literal quote =>
      have hpart := not_isComment_literal quote
      rw [moveInLine]
      split_ifs with hescape hclose
      · obtain rfl := hescape
        exact ⟨hpart, hpart, commentFree_protected hfeed.2 hrest⟩
      · obtain rfl := hclose
        rw [zone, Zone.next_literal_close hescape] at hrest
        exact ⟨hpart, not_isComment_code, hrest⟩
      · rw [zone, Zone.next_literal_plain hescape hclose] at hrest
        exact ⟨hpart, hpart, hrest⟩

/-- The automaton finds no comment in a line in which none begins. The induction is on the
steps. -/
theorem not_isComment_of_commentFree (h : CommentFree markers region.zone line)
    (hregion : ¬ region.IsComment) (hfeed : '\n' ∉ line) :
    (∀ mark ∈ region.marks markers line, mark.isComment = false) ∧
      ¬ (region.behind markers line).IsComment := by
  fun_induction marks markers region line with
  | case1 region =>
      rw [behind]
      exact ⟨fun _ hmem => absurd hmem List.not_mem_nil, hregion⟩
  | case2 region c rest move ih =>
      obtain ⟨hpart, hnext, hrest⟩ := move_of_commentFree h hregion hfeed
      obtain ⟨hmarks, hbehind⟩ := ih hrest hnext (lineFeed_not_mem_drop hfeed _)
      rw [behind]
      refine ⟨fun mark hmem => ?_, hbehind⟩
      rcases List.mem_append.mp hmem with hread | hmem
      · rw [Bool.eq_false_iff, ne_eq, Mark.isComment_iff, part_of_mem_read hread]
        exact hpart
      · exact hmarks mark hmem

/-- The automaton finds no comment in lines in which none begins. -/
theorem not_isComment_of_lines (hmarkers : markers.Unblank) {lines : List (List Char)}
    (hlines : ∀ line ∈ lines, CommentFree markers .code line ∧ '\n' ∉ line) :
    ∀ mark ∈ code.marks markers (List.intercalate ['\n'] lines), mark.isComment = false := by
  induction lines with
  | nil =>
      intro mark hmem
      rw [List.intercalate_nil, marks] at hmem
      cases hmem
  | cons line later ih =>
      obtain ⟨hline, hfeed⟩ := hlines line List.mem_cons_self
      obtain ⟨hmarks, hbehind⟩ := not_isComment_of_commentFree hline not_isComment_code hfeed
      cases later with
      | nil => rwa [List.intercalate_singleton]
      | cons next later =>
          have hcode : (code.behind markers line).afterLineFeed = code := by
            cases hregion : code.behind markers line with
            | blockComment => exact absurd (.inr hregion) hbehind
            | _ => rfl
          have hlater := ih fun other hother => hlines other (List.mem_cons_of_mem line hother)
          rw [List.intercalate_cons_cons, List.append_assoc, List.singleton_append,
            marks_append_lineFeed hmarkers hfeed, hcode]
          intro mark hmem
          rcases List.mem_append.mp hmem with hmem | hmem
          · exact hmarks mark hmem
          · rcases List.mem_cons.mp hmem with rfl | hmem
            · rfl
            · exact hlater mark hmem

end Region

end ScriptLint
