import Mathlib
import ScriptLint.Proofs.Text.Trimming
import ScriptLint.Source.Sifting

/-!
Where a comment marker stands.

* `Free`: markers without the characters of a class; `Unblank`, `Unquoted`: without
  blanks, without quotes.
* `standsAt_iff`: a marker stands where the text starts with it.
* `standsAt_append_cons`: it does not reach over a character that it does not hold.
* `standsAt_trim`: the blanks at the end of a line do not matter for a marker without
  blanks.
-/

namespace ScriptLint.Markers

open Text (isBlank)

/-- The markers hold no character that passes this test. -/
structure Free (markers : Markers) (test : Char → Bool) : Prop where
  line : ∀ c ∈ markers.line, test c = false
  blockOpen : ∀ c ∈ markers.blockOpen, test c = false
  blockClose : ∀ c ∈ markers.blockClose, test c = false

/-- The characters are run through, as the markers are short. -/
instance (markers : Markers) (test : Char → Bool) : Decidable (markers.Free test) :=
  decidable_of_iff (markers.line.all (fun c => !test c) &&
      markers.blockOpen.all (fun c => !test c) && markers.blockClose.all fun c => !test c)
    ⟨fun h => by
      simp only [Bool.and_eq_true, List.all_eq_true, Bool.not_eq_true'] at h
      exact ⟨h.1.1, h.1.2, h.2⟩,
    fun h => by
      simp only [Bool.and_eq_true, List.all_eq_true, Bool.not_eq_true']
      exact ⟨⟨h.line, h.blockOpen⟩, h.blockClose⟩⟩

/-- No marker holds a blank. -/
abbrev Unblank (markers : Markers) : Prop := markers.Free isBlank

/-- No marker holds a quote. -/
abbrev Unquoted (markers : Markers) : Prop := markers.Free Zone.isQuote

variable {marker text later : List Char} {c : Char}

lemma standsAt_iff : standsAt marker text = true ↔ marker ≠ [] ∧ marker <+: text := by
  simp [standsAt]

/-- A character that passes the test is in no marker. -/
lemma Free.not_mem {markers : Markers} {test : Char → Bool} (h : markers.Free test)
    (hc : test c = true) :
    c ∉ markers.line ∧ c ∉ markers.blockOpen ∧ c ∉ markers.blockClose := by
  refine ⟨fun hmem => ?_, fun hmem => ?_, fun hmem => ?_⟩
  · exact Bool.false_ne_true ((h.line c hmem).symm.trans hc)
  · exact Bool.false_ne_true ((h.blockOpen c hmem).symm.trans hc)
  · exact Bool.false_ne_true ((h.blockClose c hmem).symm.trans hc)

/-- A text does not start with more behind a character that is not in it. -/
lemma isPrefix_append_cons_iff (h : c ∉ marker) :
    marker <+: text ++ c :: later ↔ marker <+: text := by
  induction text generalizing marker with
  | nil =>
      cases marker with
      | nil => simp
      | cons first more =>
          have hne : first ≠ c := fun heq => h (heq ▸ List.mem_cons_self)
          simp [List.cons_prefix_cons, hne]
  | cons d rest ih =>
      cases marker with
      | nil => simp
      | cons first more =>
          have hmore : c ∉ more := fun hmem => h (List.mem_cons_of_mem first hmem)
          rw [List.cons_append, List.cons_prefix_cons, List.cons_prefix_cons, ih hmore]

/-- A marker does not reach over a character that it does not hold. -/
lemma standsAt_append_cons (h : c ∉ marker) :
    standsAt marker (text ++ c :: later) = standsAt marker text := by
  rw [Bool.eq_iff_iff, standsAt_iff, standsAt_iff, isPrefix_append_cons_iff h]

/-- A marker does not stand before a character that it does not hold. -/
lemma standsAt_cons_of_not_mem (h : c ∉ marker) : standsAt marker (c :: text) = false := by
  have hnil : standsAt marker ([] ++ c :: text) = standsAt marker [] := standsAt_append_cons h
  rw [List.nil_append] at hnil
  rw [hnil, Bool.eq_false_iff, ne_eq, standsAt_iff, List.prefix_nil]
  exact fun h => h.1 h.2

/-- The blanks at the end of a line do not matter for a marker without blanks. -/
lemma standsAt_trim (hmarker : ∀ d ∈ marker, isBlank d = false) :
    standsAt marker (Text.trim text) = standsAt marker (Text.trimStart text) := by
  obtain ⟨trailing, hsplit, hblank⟩ := Text.exists_trimEnd_split (Text.trimStart text)
  rw [Text.trim]
  conv_rhs => rw [hsplit]
  cases trailing with
  | nil => rw [List.append_nil]
  | cons first rest =>
      have hfirst := hblank first List.mem_cons_self
      refine (standsAt_append_cons fun h => ?_).symm
      rw [hmarker first h] at hfirst
      cases hfirst

end ScriptLint.Markers
