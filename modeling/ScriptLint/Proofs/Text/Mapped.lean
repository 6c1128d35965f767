import Mathlib
import ScriptLint.Proofs.Text.Endings
import ScriptLint.Text.Blank

/-!
Texts in which characters of a class are replaced by others of the class.

* `Within`: a map of characters that changes only those of a class, into such.
* `Within.eq_iff`, `Within.congr`: the other characters stay, and a function that does not tell
  the characters of the class apart does not see the map.
* `Within.unifyEndings_map`, `Within.physicalLines_map`, `Within.trim_map`: if no character of the
  class is blank, the lines of the changed text are the changed lines.
-/

namespace ScriptLint.Text

/-- The map changes only characters that pass the test, into such. -/
def Within (test : Char → Bool) (f : Char → Char) : Prop :=
  ∀ c, f c = c ∨ (test c = true ∧ test (f c) = true)

namespace Within

variable {test : Char → Bool} {f : Char → Char} {c d : Char} {text : List Char}

/-! ### Characters -/

section Characters

variable (h : Within test f)

include h

/-- A function that does not tell the characters of the class apart does not see the map. -/
lemma congr {α : Type} {g : Char → α} {a : α} (hg : ∀ c, test c = true → g c = a) (c : Char) :
    g (f c) = g c := by
  rcases h c with hsame | ⟨hc, himage⟩
  · rw [hsame]
  · rw [hg c hc, hg (f c) himage]

/-- Only a character that is not of the class becomes one. -/
lemma eq_iff (hd : test d = false) : f c = d ↔ c = d := by
  rcases h c with hsame | ⟨hc, himage⟩
  · rw [hsame]
  · constructor
    · rintro rfl
      exact absurd (hd.symm.trans himage) Bool.false_ne_true
    · rintro rfl
      exact absurd (hd.symm.trans hc) Bool.false_ne_true

/-- Two characters with one image are the same, or both of the class. -/
lemma eq_or (heq : f c = f d) : c = d ∨ (test c = true ∧ test d = true) := by
  by_cases hc : test c = true
  · by_cases hd : test d = true
    · exact .inr ⟨hc, hd⟩
    · rw [Bool.not_eq_true] at hd
      have hself : f d = d := (h.eq_iff hd).mpr rfl
      exact .inl ((h.eq_iff hd).mp (heq.trans hself))
  · rw [Bool.not_eq_true] at hc
    have hself : f c = c := (h.eq_iff hc).mpr rfl
    exact .inl ((h.eq_iff hc).mp (heq.symm.trans hself)).symm

end Characters

/-! ### Lines -/

section Lines

variable (h : Within test f) (hblank : ∀ c, test c = true → isBlank c = false)

include hblank

/-- A blank is not of the class. -/
lemma test_eq_false (hc : isBlank c = true) : test c = false := by
  by_contra hclass
  rw [Bool.not_eq_false] at hclass
  exact absurd (hblank c hclass) (by rw [hc]; exact Bool.noConfusion)

include h

lemma isBlank_apply (c : Char) : isBlank (f c) = isBlank c :=
  h.congr hblank c

lemma unifyEndings_map (text : List Char) :
    unifyEndings (text.map f) = (unifyEndings text).map f := by
  have hfeed : test '\n' = false := test_eq_false hblank (by decide)
  have hreturn : test '\r' = false := test_eq_false hblank (by decide)
  have hfeed' : f '\n' = '\n' := (h.eq_iff hfeed).mpr rfl
  have hreturn' : f '\r' = '\r' := (h.eq_iff hreturn).mpr rfl
  fun_induction unifyEndings text with
  | case1 => rfl
  | case2 rest ih =>
      rw [List.map_cons, List.map_cons, hfeed', hreturn', unifyEndings_return_feed, ih,
        List.map_cons, hfeed']
  | case3 rest hrest ih =>
      have hmap : ∀ other, rest.map f ≠ '\n' :: other := by
        intro other heq
        cases rest with
        | nil => cases heq
        | cons d rest =>
            obtain ⟨hd, -⟩ := List.cons.inj heq
            rw [h.eq_iff hfeed] at hd
            exact hrest rest (by rw [hd])
      rw [List.map_cons, hreturn', unifyEndings_return hmap, ih, List.map_cons, hfeed']
  | case4 c rest _ hc ih =>
      have himage : f c ≠ '\r' := fun heq => hc ((h.eq_iff hreturn).mp heq)
      rw [List.map_cons, unifyEndings_cons himage, ih, List.map_cons]

lemma physicalLines_map (text : List Char) :
    physicalLines (text.map f) = (physicalLines text).map (List.map f) := by
  have hfeed : test '\n' = false := test_eq_false hblank (by decide)
  induction text with
  | nil => rfl
  | cons c rest ih =>
      have hcons : ∀ d later, physicalLines (d :: later) = prependToLines d (physicalLines later) :=
        fun _ _ => rfl
      rw [List.map_cons, hcons, hcons, ih]
      unfold prependToLines
      rw [if_congr (h.eq_iff hfeed) rfl rfl]
      by_cases hc : c = '\n'
      · rw [if_pos hc, if_pos hc, List.map_cons, List.map_nil]
      · rw [if_neg hc, if_neg hc]
        cases physicalLines rest <;> rfl

/-! ### Blanks -/

lemma isBlank_comp : isBlank ∘ f = isBlank := funext (h.isBlank_apply hblank)

lemma trimStart_map (text : List Char) : trimStart (text.map f) = (trimStart text).map f := by
  rw [trimStart, List.dropWhile_map, h.isBlank_comp hblank]
  rfl

lemma trimEnd_map (text : List Char) : trimEnd (text.map f) = (trimEnd text).map f := by
  rw [trimEnd, ← List.map_reverse, List.dropWhile_map, h.isBlank_comp hblank, ← List.map_reverse]
  rfl

lemma trim_map (text : List Char) : trim (text.map f) = (trim text).map f := by
  rw [trim, h.trimStart_map hblank, h.trimEnd_map hblank, trim]

lemma leadingBlanks_map (text : List Char) : leadingBlanks (text.map f) = leadingBlanks text := by
  rw [leadingBlanks, List.takeWhile_map, h.isBlank_comp hblank, List.length_map]
  rfl

end Lines

end Within

end ScriptLint.Text
