import Mathlib
import ScriptLint.Analysis
import ScriptLint.Proofs.Reading.Markers
import ScriptLint.Proofs.Text.Mapped

/-!
Reading a script in which characters of a class are replaced by others of the class.

* `Inert`: a class without blanks, quotes and the backslash; what is a comment and what is a
  literal does not depend on which of its characters stand where.
* `siftFrom_map`: sifting the changed line, if no marker holds a character of the class.
* `SourceLine.scan_map`: the source lines of the changed script are its changed source lines.
-/

namespace ScriptLint

open Text (Within isBlank trim)

/-- The characters of the class are no blanks, no quotes and no backslashes. -/
structure Inert (test : Char → Bool) : Prop where
  not_blank : ∀ c, test c = true → isBlank c = false
  not_quote : ∀ c, test c = true → Zone.isQuote c = false
  not_escape : test '\\' = false

variable {markers : Markers} {test : Char → Bool} {f : Char → Char} {c : Char}
  {rest : List Char}

/-! ### Comments -/

/-- A quote is not of the class. -/
lemma Inert.test_quote (h : Inert test) (hquote : Zone.isQuote c = true) : test c = false := by
  by_contra hclass
  rw [Bool.not_eq_false] at hclass
  exact Bool.false_ne_true ((h.not_quote c hclass).symm.trans hquote)

/-- A marker without characters of the class stands where it stands in the changed text. -/
lemma Markers.standsAt_map (h : Within test f) {marker : List Char}
    (hmarker : ∀ c ∈ marker, test c = false) (text : List Char) :
    standsAt marker (text.map f) = standsAt marker text := by
  have hprefix : marker.isPrefixOf (text.map f) = marker.isPrefixOf text := by
    induction marker generalizing text with
    | nil => rw [List.isPrefixOf_nil_left, List.isPrefixOf_nil_left]
    | cons first more ih =>
        cases text with
        | nil => rfl
        | cons c rest =>
            have hfirst : (first == f c) = (first == c) := by
              rw [Bool.eq_iff_iff, beq_iff_eq, beq_iff_eq, eq_comm,
                h.eq_iff (hmarker first List.mem_cons_self), eq_comm]
            rw [List.map_cons, List.isPrefixOf_cons_cons, List.isPrefixOf_cons_cons, hfirst,
              ih (fun d hd => hmarker d (List.mem_cons_of_mem _ hd))]
  rw [standsAt, hprefix, standsAt]

namespace Zone

/-- The literal of a zone has no character of the class for its quote. -/
def Free (test : Char → Bool) : Zone → Prop
  | literal quote => test quote = false
  | escape quote => test quote = false
  | _ => True

lemma free_afterMarker (test : Char → Bool) (opening : Bool) (more : ℕ) :
    (afterMarker opening more).Free test := by
  cases more with
  | zero => cases opening <;> trivial
  | succ more => trivial

variable {zone next : Zone} {shown : Char}

/-- A step leaves no literal with a character of the class for its quote. -/
lemma Free.step (hzone : zone.Free test) (hclass : Inert test)
    (h : zone.step markers c rest = some (shown, next)) : next.Free test := by
  cases zone with
  | code =>
      rw [Zone.step] at h
      split_ifs at h with hline hopen hquote
      · obtain ⟨-, rfl⟩ := Prod.mk.inj (Option.some.inj h)
        exact free_afterMarker test _ _
      · obtain ⟨-, rfl⟩ := Prod.mk.inj (Option.some.inj h)
        exact hclass.test_quote hquote
      · obtain ⟨-, rfl⟩ := Prod.mk.inj (Option.some.inj h)
        trivial
  | literal quote =>
      rw [Zone.step] at h
      split_ifs at h <;> obtain ⟨-, rfl⟩ := Prod.mk.inj (Option.some.inj h)
      · exact hzone
      · trivial
      · exact hzone
  | escape quote =>
      obtain ⟨-, rfl⟩ := Prod.mk.inj (Option.some.inj h)
      exact hzone
  | comment =>
      rw [Zone.step] at h
      split_ifs at h <;> obtain ⟨-, rfl⟩ := Prod.mk.inj (Option.some.inj h)
      · exact free_afterMarker test _ _
      · trivial
  | marker opening more =>
      obtain ⟨-, rfl⟩ := Prod.mk.inj (Option.some.inj h)
      exact free_afterMarker test _ _

/-- One character of the changed line. -/
lemma step_map (h : Within test f) (hclass : Inert test) (hmarkers : markers.Free test)
    (hzone : zone.Free test) : zone.step markers (f c) (rest.map f) =
      (zone.step markers c rest).map fun seen => (f seen.1, seen.2) := by
  have hspace : f ' ' = ' ' :=
    (h.eq_iff (Within.test_eq_false hclass.not_blank Text.isBlank_space)).mpr rfl
  have hstands : ∀ {marker : List Char}, (∀ c ∈ marker, test c = false) →
      Markers.standsAt marker (f c :: rest.map f) = Markers.standsAt marker (c :: rest) :=
    fun hmarker => Markers.standsAt_map h hmarker (c :: rest)
  cases zone with
  | code =>
      rw [step, step, hstands hmarkers.line, hstands hmarkers.blockOpen,
        h.congr hclass.not_quote]
      split_ifs with hline hopen hquote
      · rfl
      · simp [hspace]
      · have hsame : f c = c := (h.eq_iff (hclass.test_quote hquote)).mpr rfl
        simp [hsame]
      · rfl
  | literal quote =>
      rw [step, step, if_congr (h.eq_iff hclass.not_escape) rfl rfl,
        if_congr (h.eq_iff hzone) rfl rfl]
      split_ifs <;> rfl
  | escape quote => rfl
  | comment =>
      rw [step, step, hstands hmarkers.blockClose]
      split_ifs <;> simp [hspace]
  | marker opening more => simp [step, hspace]

end Zone

section Lines

variable (h : Within test f) (hclass : Inert test) (hmarkers : markers.Free test)

include h hclass hmarkers

/-- Sifting the changed line. -/
lemma siftFrom_map {zone : Zone} (hzone : zone.Free test) (text : List Char) :
    siftFrom markers zone (text.map f) =
      ⟨(siftFrom markers zone text).shown.map f, (siftFrom markers zone text).opened⟩ := by
  induction text generalizing zone with
  | nil => rfl
  | cons c rest ih =>
      rw [List.map_cons, siftFrom, siftFrom, Zone.step_map h hclass hmarkers hzone]
      cases hstep : zone.step markers c rest with
      | none => rfl
      | some seen =>
          simp only [Option.map_some, ih (hzone.step hclass hstep)]
          rfl

/-! ### Source lines -/

namespace SourceLine

/-- The source line with its characters changed. -/
def mapped (f : Char → Char) (line : SourceLine) : SourceLine :=
  { line with text := line.text.map f }

omit hmarkers in
lemma ofShown?_map (number : ℕ) (shown : List Char) :
    ofShown? number (shown.map f) = (ofShown? number shown).map (mapped f) := by
  rw [ofShown?, ofShown?, h.trim_map hclass.not_blank, h.leadingBlanks_map hclass.not_blank,
    List.isEmpty_map]
  split_ifs <;> rfl

lemma ofPhysical_map (number : ℕ) (inComment : Bool) (physical : List Char) :
    ofPhysical markers number inComment (physical.map f) =
      ((ofPhysical markers number inComment physical).1.map (mapped f),
        (ofPhysical markers number inComment physical).2) := by
  have hsift : sift markers inComment (physical.map f) =
      ⟨(sift markers inComment physical).shown.map f,
        (sift markers inComment physical).opened⟩ := by
    refine siftFrom_map h hclass hmarkers ?_ physical
    cases inComment <;> trivial
  simp only [ofPhysical, hsift, h.trim_map hclass.not_blank, Markers.standsAt_map h hmarkers.line,
    Markers.standsAt_map h hmarkers.blockOpen, List.isEmpty_map, ofShown?_map h hclass]
  split_ifs <;> rfl

lemma scanFrom_map (number : ℕ) (inComment : Bool) (physicals : List (List Char)) :
    scanFrom markers number inComment (physicals.map (List.map f)) =
      (scanFrom markers number inComment physicals).map (mapped f) := by
  induction physicals generalizing number inComment with
  | nil => rfl
  | cons physical later ih =>
      rw [List.map_cons, scanFrom, scanFrom, ofPhysical_map h hclass hmarkers]
      simp only [ih, List.map_append]
      cases (ofPhysical markers number inComment physical).1 <;> rfl

/-- **The source lines** of the changed script are its changed source lines. -/
theorem scan_map (source : List Char) :
    scan markers (source.map f) = (scan markers source).map (mapped f) := by
  rw [scan, h.unifyEndings_map hclass.not_blank, h.physicalLines_map hclass.not_blank,
    scanFrom_map h hclass hmarkers, scan]

end SourceLine

end Lines

end ScriptLint
