/-!
Quotients rounded to the nearest natural number.

* `Tie`: where an exact half goes.
* `roundDiv`: the rounded quotient.
* `roundDiv_cases`: which neighbour it is.
* `two_mul_roundDiv_le`, `le_two_mul_roundDiv`: it is within half a unit.
-/

namespace ScriptLint.Decimal

/-- Where a number goes that lies halfway between two neighbours. -/
inductive Tie where
  | toEven | up
deriving DecidableEq, Repr

/-- Whether the upper neighbour of `low` is taken at a tie. -/
def Tie.goesUp (tie : Tie) (low : Nat) : Bool :=
  match tie with
  | toEven => low % 2 == 1
  | up => true

/-- The natural number nearest to `num / den`. -/
def roundDiv (num den : Nat) (tie : Tie) : Nat :=
  let low := num / den
  let rest := 2 * (num % den)
  if rest < den then low
  else if den < rest then low + 1
  else if tie.goesUp low then low + 1 else low

/-- Rounding takes the lower neighbour where at most half a unit is left, and the upper one
where at least half a unit is. -/
theorem roundDiv_cases (num den : Nat) (tie : Tie) :
    (roundDiv num den tie = num / den ∧ 2 * (num % den) ≤ den) ∨
      (roundDiv num den tie = num / den + 1 ∧ den ≤ 2 * (num % den)) := by
  unfold roundDiv
  simp only
  split
  · exact .inl ⟨rfl, by omega⟩
  · split
    · exact .inr ⟨rfl, by omega⟩
    · split
      · exact .inr ⟨rfl, by omega⟩
      · exact .inl ⟨rfl, by omega⟩

/-- The rounded quotient is at most half a unit too large. -/
theorem two_mul_roundDiv_le (num den : Nat) (tie : Tie) :
    2 * (roundDiv num den tie * den) ≤ 2 * num + den := by
  have h := Nat.div_add_mod' num den
  rcases roundDiv_cases num den tie with ⟨hround, _⟩ | ⟨hround, hhalf⟩
  · rw [hround]
    omega
  · rw [hround, Nat.add_mul]
    omega

/-- The rounded quotient is at most half a unit too small. -/
theorem le_two_mul_roundDiv (num : Nat) {den : Nat} (h_den : 0 < den) (tie : Tie) :
    2 * num ≤ 2 * (roundDiv num den tie * den) + den := by
  have h := Nat.div_add_mod' num den
  have hlt := Nat.mod_lt num h_den
  rcases roundDiv_cases num den tie with ⟨hround, hhalf⟩ | ⟨hround, _⟩
  · rw [hround]
    omega
  · rw [hround, Nat.add_mul]
    omega

end ScriptLint.Decimal
