import ScriptLint.Proofs.Decimal.Nearest

/-!
The shortest decimal of a double rounds to the double.

* `Digits.toRat`: the value of a decimal; it is kept without the trailing zeros
  (`Digits.toRat_normal`).
* `scaleBy_eq`: the fractions of the search as rational numbers.
* `Span.holds_iff`: the points of a grid that lie in a span are those that round to its double.
* `searchFrom_roundsTo`, `shortest_roundsTo`: every result of the search does, also on the
  last grid, where the nearest point is taken without a further look.
-/

namespace ScriptLint.Decimal

/-! ### Values -/

/-- The value of a decimal. -/
def Digits.toRat (digits : Digits) : ℚ :=
  digits.value * 10 ^ digits.exponent

namespace Digits

/-- Trailing zeros can be left out. -/
lemma toRat_strip (fuel : ℕ) (digits : Digits) : (strip fuel digits).toRat = digits.toRat := by
  induction fuel generalizing digits with
  | zero => rfl
  | succ fuel ih =>
      rw [strip]
      split_ifs with hzero
      · obtain ⟨less, hless⟩ : ∃ less, digits.value = 10 * less := Nat.dvd_of_mod_eq_zero hzero
        have hdiv : digits.value / 10 = less := by omega
        rw [ih, toRat, toRat, hdiv, hless, zpow_add_one₀ (by norm_num), Nat.cast_mul,
          Nat.cast_ofNat]
        ring
      · rfl

/-- The normal form keeps the value. -/
lemma toRat_normal (digits : Digits) : digits.normal.toRat = digits.toRat := by
  rw [normal]
  split_ifs with hzero
  · rw [toRat, toRat, hzero, Nat.cast_zero, zero_mul, zero_mul]
  · exact toRat_strip _ _

end Digits

/-- A fraction of the search as a rational number. -/
lemma scaleBy_eq (n : ℕ) (twos tens : ℤ) :
    ((scaleBy n twos tens).num : ℚ) = n * 2 ^ twos * 10 ^ tens * (scaleBy n twos tens).den := by
  have hpower : ∀ {b : ℚ} (p : ℤ), b ≠ 0 → b ^ p.toNat = b ^ p * b ^ (-p).toNat := by
    intro b p hb
    rw [← zpow_natCast, ← zpow_natCast, ← zpow_add₀ hb]
    congr 1
    omega
  simp only [scaleBy, Nat.pow_eq, Nat.cast_mul, Nat.cast_pow, Nat.cast_ofNat]
  rw [hpower twos two_ne_zero, hpower tens (by norm_num)]
  ring

/-! ### Spans -/

section Spans

variable {m : ℕ} {e tens : ℤ} {tie : Tie}

lemma quartersBelow_pos (m : ℕ) (e : ℤ) : 1 ≤ quartersBelow m e := by
  rw [quartersBelow]
  split_ifs <;> decide

lemma quartersBelow_le_mul (hm : 0 < m) (e : ℤ) : quartersBelow m e ≤ 4 * m := by
  rw [quartersBelow]
  split_ifs <;> omega

/-- A span counts in quarters of the last bit: what its parts and the points of its grid are
in a common unit. -/
lemma exists_unit (e tens : ℤ) :
    ∃ unit : ℚ, 0 < unit ∧
      (∀ n, ((scaleBy n (e - 2) (-tens)).num : ℚ) = n * unit) ∧
      ∀ k : ℕ, ((k * (scaleBy 1 (e - 2) (-tens)).den : ℕ) : ℚ) =
        4 * (k * 10 ^ tens / 2 ^ e) * unit := by
  have hden : (0 : ℚ) < (scaleBy 1 (e - 2) (-tens)).den := by
    exact_mod_cast scaleBy_den_pos 1 (e - 2) (-tens)
  refine ⟨2 ^ (e - 2) * 10 ^ (-tens) * (scaleBy 1 (e - 2) (-tens)).den, by positivity,
    fun n => ?_, fun k => ?_⟩
  · rw [scaleBy_eq, mul_assoc (n : ℚ), mul_assoc (n : ℚ)]
    rfl
  · rw [zpow_sub₀ two_ne_zero, zpow_neg]
    push_cast
    field_simp

/-- The points of a grid in the span of a double are those that round to it. -/
lemma Span.holds_iff (hm : 0 < m) (k : ℕ) :
    (Span.ofDouble m e tens).holds k = true ↔ RoundsTo m e (k * 10 ^ tens) := by
  obtain ⟨unit, hunit, hpart, hpoint⟩ := exists_unit e tens
  obtain ⟨below, hbelow⟩ : ∃ below, quartersBelow m e = below := ⟨_, rfl⟩
  have hlow : ((Span.ofDouble m e tens).low : ℚ) = (4 * m - below) * unit := by
    have hcast : ((4 * m - quartersBelow m e : ℕ) : ℚ) = 4 * m - below := by
      rw [Nat.cast_sub (quartersBelow_le_mul hm e), hbelow, Nat.cast_mul, Nat.cast_ofNat]
    rw [← hcast]
    exact hpart _
  have hhigh : ((Span.ofDouble m e tens).high : ℚ) = (4 * m + 2) * unit := by
    have hcast : ((4 * m + 2 : ℕ) : ℚ) = 4 * m + 2 := by push_cast; rfl
    rw [← hcast]
    exact hpart _
  have hgrid : ((k * (Span.ofDouble m e tens).grid : ℕ) : ℚ) =
      4 * (k * 10 ^ tens / 2 ^ e) * unit := hpoint k
  have hclosed : (Span.ofDouble m e tens).closed = true ↔ m % 2 = 0 := beq_iff_eq
  rw [Span.holds]
  split_ifs with heven
  · rw [Bool.and_eq_true, decide_eq_true_iff, decide_eq_true_iff, ← Nat.cast_le (α := ℚ),
      ← Nat.cast_le (α := ℚ), hlow, hhigh, hgrid, mul_le_mul_iff_left₀ hunit,
      mul_le_mul_iff_left₀ hunit, sub_le_iff_le_add]
    exact ⟨fun h => ⟨hbelow ▸ h.1, h.2, fun _ => hclosed.mp heven⟩,
      fun h => ⟨hbelow ▸ h.ge, h.le⟩⟩
  · rw [Bool.and_eq_true, decide_eq_true_iff, decide_eq_true_iff, ← Nat.cast_lt (α := ℚ),
      ← Nat.cast_lt (α := ℚ), hlow, hhigh, hgrid, mul_lt_mul_iff_left₀ hunit,
      mul_lt_mul_iff_left₀ hunit, sub_lt_iff_lt_add]
    have hodd : ¬ m % 2 = 0 := fun h => heven (hclosed.mpr h)
    refine ⟨fun h => ⟨hbelow ▸ h.1.le, h.2.le, ?_⟩, fun h => ⟨?_, ?_⟩⟩
    · rintro (htie | htie)
      · exact absurd (hbelow ▸ htie) h.1.ne
      · exact absurd htie h.2.ne
    · exact lt_of_le_of_ne (hbelow ▸ h.ge) fun htie => hodd (h.even (.inl (hbelow ▸ htie)))
    · exact lt_of_le_of_ne h.le fun htie => hodd (h.even (.inr htie))

/-- What is taken from a grid lies in the span. -/
lemma Span.holds_of_pick {span : Span} {k : ℕ} (h : span.pick? tie = some k) :
    span.holds k = true := by
  rw [Span.pick?] at h
  split at h
  · cases h
  · cases h
    assumption
  · cases h
    assumption
  · cases h
    rcases roundDiv_cases span.mid span.grid tie with ⟨heq, _⟩ | ⟨heq, _⟩
    · rwa [heq]
    · rwa [heq]

/-- On a fine grid the point nearest to a double rounds to it. -/
lemma roundsTo_nearest (hfine : 2 * (10 : ℚ) ^ tens < 2 ^ e) :
    RoundsTo m e (roundDiv (Span.ofDouble m e tens).mid (Span.ofDouble m e tens).grid tie *
      10 ^ tens) := by
  obtain ⟨unit, hunit, hpart, hpoint⟩ := exists_unit e tens
  obtain ⟨k, hk⟩ : ∃ k, roundDiv (Span.ofDouble m e tens).mid (Span.ofDouble m e tens).grid
      tie = k := ⟨_, rfl⟩
  have hmid : ((Span.ofDouble m e tens).mid : ℚ) = 4 * m * unit := by
    have hcast : ((4 * m : ℕ) : ℚ) = 4 * m := by push_cast; rfl
    rw [← hcast]
    exact hpart _
  have hgrid : ((k * (Span.ofDouble m e tens).grid : ℕ) : ℚ) =
      4 * (k * 10 ^ tens / 2 ^ e) * unit := hpoint k
  -- one step of the grid is less than two quarters of the last bit
  have hstep : ((Span.ofDouble m e tens).grid : ℚ) < 2 * unit := by
    have hone : ((Span.ofDouble m e tens).grid : ℚ) = 4 * (10 ^ tens / 2 ^ e) * unit := by
      have := hpoint 1
      rwa [one_mul, Nat.cast_one, one_mul] at this
    have hratio : (10 : ℚ) ^ tens / 2 ^ e < 1 / 2 := by
      rw [div_lt_iff₀ (by positivity)]
      linarith
    rw [hone]
    exact mul_lt_mul_of_pos_right (by linarith) hunit
  have hpos : 0 < (Span.ofDouble m e tens).grid := scaleBy_den_pos 1 (e - 2) (-tens)
  have hbelow := two_mul_roundDiv_le (Span.ofDouble m e tens).mid
    (Span.ofDouble m e tens).grid tie
  have habove := le_two_mul_roundDiv (Span.ofDouble m e tens).mid hpos tie
  rw [hk] at hbelow habove ⊢
  have hbelow' : 2 * (4 * (k * 10 ^ tens / 2 ^ e) * unit) ≤
      2 * (4 * m * unit) + (Span.ofDouble m e tens).grid := by
    rw [← hmid, ← hgrid]
    exact_mod_cast hbelow
  have habove' : 2 * (4 * m * unit) ≤
      2 * (4 * (k * 10 ^ tens / 2 ^ e) * unit) + (Span.ofDouble m e tens).grid := by
    rw [← hmid, ← hgrid]
    exact_mod_cast habove
  have hlow : 4 * (m : ℚ) < 4 * (k * 10 ^ tens / 2 ^ e) + 1 := by
    refine lt_of_mul_lt_mul_right ?_ hunit.le
    linarith
  have hhigh : 4 * (k * 10 ^ tens / 2 ^ e : ℚ) < 4 * m + 1 := by
    refine lt_of_mul_lt_mul_right ?_ hunit.le
    linarith
  have hquarters : (1 : ℚ) ≤ quartersBelow m e := by exact_mod_cast quartersBelow_pos m e
  refine ⟨by linarith, by linarith, ?_⟩
  rintro (htie | htie) <;> linarith

end Spans

/-! ### The search -/

section Search

variable {m : ℕ} {e tens : ℤ} {tie : Tie}

/-- Every result of the search rounds to the double, if the last grid is fine. -/
lemma searchFrom_roundsTo (hm : 0 < m) {finer : ℕ}
    (hfine : 2 * (10 : ℚ) ^ (tens - finer) < 2 ^ e) :
    RoundsTo m e (searchFrom m e tie finer tens).toRat := by
  induction finer generalizing tens with
  | zero =>
      rw [Nat.cast_zero, sub_zero] at hfine
      exact roundsTo_nearest hfine
  | succ finer ih =>
      rw [searchFrom]
      split
      · rename_i k hpick
        exact (Span.holds_iff hm k).mp (Span.holds_of_pick hpick)
      · refine ih ?_
        rwa [sub_sub, add_comm (1 : ℤ), ← Nat.cast_succ]

/-- The estimate of the decimal logarithm, less one, is not too great. -/
lemma ten_zpow_le_two_zpow {bits : ℤ} (hmax : bits ≤ 100000) :
    (10 : ℚ) ^ (bits * 30103 / 100000 - 1) ≤ 2 ^ bits := by
  obtain ⟨guess, hguess⟩ : ∃ guess, bits * 30103 / 100000 - 1 = guess := ⟨_, rfl⟩
  rw [hguess]
  by_contra hlt
  have hpower : ((2 : ℚ) ^ bits) ^ 100000 < ((10 : ℚ) ^ guess) ^ 100000 :=
    pow_lt_pow_left₀ (not_le.mp hlt) (by positivity) (by decide)
  rw [← zpow_natCast, ← zpow_natCast, ← zpow_mul, ← zpow_mul] at hpower
  have hcontra : (10 : ℚ) ^ (guess * (100000 : ℕ)) ≤ 2 ^ (bits * (100000 : ℕ)) := by
    rcases le_or_gt 0 bits with hsign | hsign
    · obtain ⟨n, rfl⟩ := Int.eq_ofNat_of_zero_le hsign
      calc (10 : ℚ) ^ (guess * (100000 : ℕ)) ≤ 10 ^ (((30102 * n : ℕ) : ℤ)) :=
            zpow_le_zpow_right₀ (by norm_num) (by push_cast; omega)
        _ = (10 ^ 30102) ^ n := by rw [zpow_natCast, pow_mul]
        _ ≤ (2 ^ 100000) ^ n := pow_le_pow_left₀ (by positivity)
            (by exact_mod_cast (by decide +kernel : 10 ^ 30102 ≤ 2 ^ 100000)) n
        _ = 2 ^ ((n : ℤ) * (100000 : ℕ)) := by
            rw [← pow_mul, ← Nat.cast_mul, zpow_natCast, mul_comm]
    · obtain ⟨n, rfl⟩ : ∃ n : ℕ, bits = -n := ⟨(-bits).toNat, by omega⟩
      calc (10 : ℚ) ^ (guess * (100000 : ℕ)) ≤ 10 ^ (-((30103 * n : ℕ) : ℤ)) :=
            zpow_le_zpow_right₀ (by norm_num) (by push_cast; omega)
        _ = ((10 ^ 30103) ^ n)⁻¹ := by rw [zpow_neg, zpow_natCast, pow_mul]
        _ ≤ ((2 ^ 100000) ^ n)⁻¹ := inv_anti₀ (by positivity) (pow_le_pow_left₀ (by positivity)
            (by exact_mod_cast (by decide +kernel : 2 ^ 100000 ≤ 10 ^ 30103)) n)
        _ = 2 ^ (-(n : ℤ) * (100000 : ℕ)) := by
            rw [← pow_mul, neg_mul, ← Nat.cast_mul, zpow_neg, zpow_natCast, mul_comm]
  exact absurd hpower (not_lt.mpr hcontra)

/-- The leading power is not greater than the double. -/
lemma leadingPower_le (hm : 0 < m) (hmax : (m.log2 : ℤ) + e ≤ 100000) :
    (10 : ℚ) ^ leadingPower m e ≤ m * 2 ^ e := by
  have hreaches : ∀ {tens : ℤ},
      (scaleBy m e (-tens)).den ≤ (scaleBy m e (-tens)).num → (10 : ℚ) ^ tens ≤ m * 2 ^ e := by
    intro tens hle
    have hden : (0 : ℚ) < (scaleBy m e (-tens)).den := by
      exact_mod_cast scaleBy_den_pos m e (-tens)
    have hle' : ((scaleBy m e (-tens)).den : ℚ) ≤ (scaleBy m e (-tens)).num := by
      exact_mod_cast hle
    rw [scaleBy_eq, le_mul_iff_one_le_left hden, zpow_neg, ← div_eq_mul_inv,
      le_div_iff₀ (by positivity), one_mul] at hle'
    exact hle'
  have hsize : (2 : ℚ) ^ ((m.log2 : ℤ) + e) ≤ m * 2 ^ e :=
    (size_bounds hm le_rfl (lt_add_one _)).1
  rw [leadingPower]
  dsimp only
  split_ifs with hupper hlower
  · exact hreaches (of_decide_eq_true hupper)
  · exact hreaches (of_decide_eq_true hlower)
  · exact (ten_zpow_le_two_zpow hmax).trans hsize

/-- **Shortest decimals**: the shortest decimal of a double rounds to the double. -/
theorem shortest_roundsTo (hm : 0 < m) (hcanonical : Doubles.Canonical m e) (hmax : e ≤ 971)
    (tie : Tie) : RoundsTo m e (shortest m e tie).toRat := by
  have hlog : m.log2 ≤ 52 :=
    Nat.le_of_lt_succ ((Nat.log2_lt hm.ne').mpr hcanonical.mantissa_lt)
  rw [shortest, if_neg hm.ne', Digits.toRat_normal]
  refine searchFrom_roundsTo hm ?_
  have hlead := leadingPower_le hm (e := e) (by omega)
  have hbits : (m : ℚ) < 2 ^ 53 := by exact_mod_cast hcanonical.mantissa_lt
  have hunit : (0 : ℚ) < 2 ^ e := by positivity
  rw [zpow_sub₀ (by norm_num), zpow_natCast, mul_div_assoc', div_lt_iff₀ (by positivity)]
  calc 2 * (10 : ℚ) ^ leadingPower m e ≤ 2 * (m * 2 ^ e) := by linarith
    _ < 2 * (2 ^ 53 * 2 ^ e) := by
        exact mul_lt_mul_of_pos_left (mul_lt_mul_of_pos_right hbits hunit) two_pos
    _ ≤ 2 ^ e * 10 ^ 17 := by nlinarith

/-- It is not zero. -/
lemma RoundsTo.value_pos {digits : Digits} (h : RoundsTo m e digits.toRat) (hm : 0 < m) :
    0 < digits.value := by
  refine Nat.pos_of_ne_zero fun hzero => ?_
  have hone : (1 : ℚ) ≤ m := by exact_mod_cast hm
  have hge := h.ge
  rw [Digits.toRat, hzero, Nat.cast_zero, zero_mul, zero_div, mul_zero, zero_add] at hge
  linarith [quartersBelow_le m e]

end Search

end ScriptLint.Decimal
