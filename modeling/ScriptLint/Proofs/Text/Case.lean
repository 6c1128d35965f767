import Mathlib
import ScriptLint.Proofs.Text.Mapped
import ScriptLint.Text.Folding

/-!
Texts in small letters.

* `within_toLower`: a character stays, or is a letter and becomes one; so a function that does not
  tell letters apart does not see their case (`congr_toLower`).
* `fold_fold`, `sameName_iff`: two texts are the same name if they agree in small letters.
-/

namespace ScriptLint.Text

variable {text : List Char} {c : Char}

/-! ### Characters -/

lemma isUpper_iff : c.isUpper = true ↔ 65 ≤ c.toNat ∧ c.toNat ≤ 90 := by
  simp only [Char.isUpper, decide_eq_true_eq, UInt32.le_iff_toNat_le, ge_iff_le]
  exact Iff.rfl

/-- A letter is one of the code points of the letters A to Z, large or small. -/
lemma isAlpha_iff : c.isAlpha = true ↔
    (65 ≤ c.toNat ∧ c.toNat ≤ 90) ∨ (97 ≤ c.toNat ∧ c.toNat ≤ 122) := by
  rw [Char.isAlpha, Bool.or_eq_true, isUpper_iff]
  simp only [Char.isLower, UInt32.le_iff_toNat_le, ge_iff_le, Bool.and_eq_true,
    decide_eq_true_eq]
  exact Iff.rfl

lemma toNat_toLower (h : c.isUpper = true) : c.toLower.toNat = c.toNat + 32 := by
  have hbounds := isUpper_iff.mp h
  rw [Char.toLower_eq_of_isUpper h, Char.toNat_ofNat, if_pos (.inl (by omega))]

/-- A character stays, or it is a letter and becomes one. -/
lemma within_toLower : Within Char.isAlpha Char.toLower := by
  intro c
  by_cases hupper : c.isUpper = true
  · have hbounds := isUpper_iff.mp hupper
    have hlower := toNat_toLower hupper
    exact .inr ⟨isAlpha_iff.mpr (.inl hbounds), isAlpha_iff.mpr (.inr (by omega))⟩
  · exact .inl (Char.toLower_eq_of_not_isUpper hupper)

/-- A function that does not tell letters apart does not see their case. -/
lemma congr_toLower {α : Type} {f : Char → α} {a : α} (h : ∀ c, c.isAlpha = true → f c = a)
    (c : Char) : f c.toLower = f c :=
  within_toLower.congr h c

/-- Letters are not blank. -/
lemma isBlank_of_isAlpha (h : c.isAlpha = true) : isBlank c = false := by
  rw [isAlpha_iff] at h
  simp only [isBlank, blankRanges, List.any_cons, List.any_nil, Bool.or_false,
    Bool.or_eq_false_iff, Bool.and_eq_false_iff, decide_eq_false_iff_not, not_le]
  omega

lemma isBlank_toLower (c : Char) : isBlank c.toLower = isBlank c :=
  within_toLower.isBlank_apply (fun _ => isBlank_of_isAlpha) c

/-- Only a character that is no letter becomes one. -/
lemma toLower_eq_iff {d : Char} (hd : d.isAlpha = false) : c.toLower = d ↔ c = d :=
  within_toLower.eq_iff hd

/-- Only letters are in another case. -/
lemma isAlpha_of_toLower_eq {d : Char} (h : c.toLower = d.toLower) (hne : c ≠ d) :
    c.isAlpha = true := by
  by_contra hc
  rw [Bool.not_eq_true] at hc
  have hself : c.toLower = c := (toLower_eq_iff hc).mpr rfl
  rw [hself, eq_comm, toLower_eq_iff hc] at h
  exact hne h.symm

/-! ### Names -/

lemma fold_cons (c : Char) (text : List Char) : fold (c :: text) = c.toLower :: fold text := rfl

lemma length_fold (text : List Char) : (fold text).length = text.length := List.length_map _

lemma fold_fold (text : List Char) : fold (fold text) = fold text := by
  rw [fold, fold, List.map_map]
  exact List.map_congr_left fun c _ => Char.toLower_toLower_eq_toLower c

lemma sameName_iff {first second : List Char} :
    sameName first second = true ↔ fold first = fold second := by
  rw [sameName, beq_iff_eq]

end ScriptLint.Text
