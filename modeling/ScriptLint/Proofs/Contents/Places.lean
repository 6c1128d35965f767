import Mathlib
import ScriptLint.Proofs.Contents.Script
import ScriptLint.Proofs.Text.Mapped

/-!
Characters of the lines of a script in the script.

* `exists_behind`: a character of a line is one of the script, and its place is that behind what
  stands before it.
* `Position.behind_map`: other characters of a class without blanks stand at the same places.
* `exists_moment`: so where two scripts differ in characters of such a class only, characters at
  one place of their lines are characters at one index of the scripts.
-/

namespace ScriptLint

open Text (Within isBlank physicalLines unifyEndings)

/-- A character of a line is one of the script, and its place is that behind what stands before
it. -/
lemma exists_behind {source physical : List Char} {index offset : ℕ} {c : Char}
    (hphysical : (physicalLines (unifyEndings source))[index]? = some physical)
    (hc : physical[offset]? = some c) :
    ∃ before after, source = before ++ c :: after ∧
      Position.behind before = ⟨index + 1, offset + 1⟩ := by
  obtain ⟨hlt, rfl⟩ := List.getElem?_eq_some_iff.mp hc
  have hcut : physical =
      physical.take offset ++ ([physical[offset]] ++ physical.drop (offset + 1)) := by
    rw [List.singleton_append, ← List.drop_eq_getElem_cons hlt, List.take_append_drop]
  have hindex := (List.getElem?_eq_some_iff.mp hphysical).1
  rw [hcut] at hphysical
  obtain ⟨before, after, hsource, hbefore, -⟩ := Text.exists_part_split hphysical
  refine ⟨before, after, hsource, ?_⟩
  rw [Position.behind_eq hindex hbefore, List.length_take_of_le hlt.le]

section Mapped

variable {test : Char → Bool} {f : Char → Char} (h : Within test f)
  (hblank : ∀ c, test c = true → isBlank c = false)

include h hblank

/-- Other characters of the class stand at the same places. -/
lemma Position.behind_map (text : List Char) : behind (text.map f) = behind text := by
  rw [behind, behind, h.unifyEndings_map hblank, Text.lastLine, Text.lastLine,
    h.physicalLines_map hblank]
  simp only [List.length_map, List.getLast?_map]
  cases (physicalLines (unifyEndings text)).getLast? with
  | none => rfl
  | some last => simp only [Option.map_some, Option.getD_some, List.length_map]

/-- Characters of the class that stand at one place of the lines of two scripts stand at one
index of the scripts, if these differ in characters of the class only. -/
theorem exists_moment {source other physical physical' : List Char} {index offset : ℕ}
    {c d : Char} (hmap : source.map f = other.map f)
    (hphysical : (physicalLines (unifyEndings source))[index]? = some physical)
    (hphysical' : (physicalLines (unifyEndings other))[index]? = some physical')
    (hc : physical[offset]? = some c) (hd : physical'[offset]? = some d)
    (hclass : test c = true) (hclass' : test d = true) :
    ∃ moment, source[moment]? = some c ∧ other[moment]? = some d ∧
      Position.behind (source.take moment) = ⟨index + 1, offset + 1⟩ := by
  obtain ⟨before, after, rfl, hbehind⟩ := exists_behind hphysical hc
  obtain ⟨before', after', rfl, hbehind'⟩ := exists_behind hphysical' hd
  have hends : ∀ {e : Char}, test e = true → f e ≠ '\n' ∧ f e ≠ '\r' := by
    intro e he
    have hplain := h.isBlank_apply hblank e
    rw [hblank e he] at hplain
    constructor <;> intro heq <;> rw [heq] at hplain <;> cases hplain
  have hjoin : before.map f ++ f c :: after.map f = before'.map f ++ f d :: after'.map f := by
    simpa only [List.map_append, List.map_cons] using hmap
  have hplace : Position.behind (before.map f) = Position.behind (before'.map f) := by
    rw [Position.behind_map h hblank, Position.behind_map h hblank, hbehind, hbehind']
  have hbefore : before.map f = before'.map f :=
    Position.eq_of_behind hjoin hplace (hends hclass) (hends hclass')
  have hlength : before.length = before'.length := by
    simpa only [List.length_map] using congrArg List.length hbefore
  refine ⟨before.length, ?_, ?_, by rw [List.take_left, hbehind]⟩
  · rw [List.getElem?_append_right le_rfl, Nat.sub_self, List.getElem?_cons_zero]
  · rw [hlength, List.getElem?_append_right le_rfl, Nat.sub_self, List.getElem?_cons_zero]

end Mapped

end ScriptLint
