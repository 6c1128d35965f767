import Mathlib

/-!
Doubles that are not negative, and the order of their sums.

* `Canonical`, `canonical_of_unpack`, `unpack_pack_finite`: the mantissas and exponents
  that a double keeps.
* `IsNonneg`, `rank`: the numbers that are not negative, and where they stand in the order
  (`le_iff_rank`).
* `exists_roundWithAccuracy`, `exists_round`: what rounding does to a mantissa. The
  exponent may grow by one, the mantissa is not less than the bits that are left of it.
* `add_nonneg`, `le_add`, `le_trans`, `mul_nonneg`, `ofNat_nonneg`: sums and products of
  doubles that are not negative. No law of exact arithmetic is needed for `a ≤ a + b`, only
  that `a` is a double itself.
-/

namespace ScriptLint.Doubles

open Float.Model Float.Model.UnpackedFloat

/-! ### Packing -/

/-- A mantissa and an exponent as a double keeps them: 53 bits, of which the first is set
unless the exponent is the least one. -/
structure Canonical (mantissa : Nat) (exponent : Int) : Prop where
  mantissa_lt : mantissa < 2 ^ 53
  le_exponent : -1074 ≤ exponent
  normal : 2 ^ 52 ≤ mantissa ∨ exponent = -1074

/-- An unpacked double that is a number and not negative; a zero may have any sign. -/
inductive IsNonneg : UnpackedFloat → Prop
  | zero (sign : Sign) : IsNonneg (.zero sign)
  | infinity : IsNonneg (.infinity .positive)
  | finite {mantissa : Nat} {exponent : Int} (hpos : 0 < mantissa) :
      IsNonneg (.finite .positive mantissa exponent hpos)

section Packing

variable {sign : Sign} {mantissa : Nat} {exponent : Int} {hpos : 0 < mantissa}

/-- What a double with these parts is. -/
lemma unpack_packComponents (sign : Sign) (e : BitVec 11) (m : BitVec 52) :
    unpack .binary64 (packComponents .binary64 sign e m) =
      if e = -1#11 then
        if m = 0#52 then .infinity sign else .notANumber
      else if e = 0#11 then
        if h : 0 < m.toNat then .finite sign m.toNat (-1074) h else .zero sign
      else
        .finite sign (2 ^ 52 + m.toNat) (e.toNat - 1075) (by positivity) := by
  have hleading : (1#1 ++ m).toNat = 2 ^ 52 + m.toNat := by
    rw [BitVec.toNat_append, ← Nat.shiftLeft_add_eq_or_of_lt m.isLt]
    rfl
  have hzero : m = 0#52 ↔ ¬ 0 < m.toNat := by
    rw [← BitVec.toNat_inj, BitVec.toNat_zero, Nat.not_lt, Nat.le_zero]
  simp only [UnpackedFloat.unpack, unpackExponent_packComponents,
    unpackMantissa_packComponents, unpackSign_packComponents, Sign.ofBitVec_toBitVec, hleading]
  split_ifs with htop hm hlow hm hm' hm'
  · rfl
  · rfl
  · exact absurd hm' (hzero.mp hm)
  · rfl
  · subst hlow
    rfl
  · exact absurd (hzero.mpr hm') hm
  · rfl

/-- Every double has parts. -/
lemma exists_packComponents (b : BitVec Format.binary64.numBits) :
    ∃ (sign : Sign) (e : BitVec 11) (m : BitVec 52),
      b = packComponents .binary64 sign e m :=
  ⟨_, _, _, (packComponents_unpackSign_unpackExponent_unpackMantissa b).symm⟩

/-- A finite double is canonical. -/
lemma canonical_of_unpack {x : Float.Model}
    (h : x.unpack = .finite sign mantissa exponent hpos) : Canonical mantissa exponent := by
  obtain ⟨s, e, m, hx⟩ := exists_packComponents x.toBits.toBitVec
  rw [Float.Model.unpack, hx, unpack_packComponents] at h
  have hm : m.toNat < 2 ^ 52 := m.isLt
  split_ifs at h with htop hm' hlow hm'
  · cases h
    exact ⟨by omega, le_rfl, .inr rfl⟩
  · cases h
    have he : e.toNat ≠ 0 := fun heq => hlow (BitVec.eq_of_toNat_eq heq)
    exact ⟨by omega, by omega, .inl (Nat.le_add_right _ _)⟩

/-- The parts that a finite number is packed into. -/
lemma pack_finite :
    UnpackedFloat.pack .binary64 (.finite sign mantissa exponent hpos) =
      if 971 < exponent then packedInfinity .binary64 sign
      else if mantissa.log2 = 52 then
        packComponents .binary64 sign (BitVec.ofNat 11 (exponent + 1075).toNat)
          (BitVec.ofNat 52 mantissa)
      else packComponents .binary64 sign 0#11 (BitVec.ofNat 52 mantissa) := by
  have hbias : exponent + (Format.binary64.exponentBias : Int) +
      (Format.binary64.mantissaBitsWithoutImplicit : Int) = exponent + 1075 := by
    rw [add_assoc]
    rfl
  have htop : 2 ^ Format.binary64.exponentBits = 2048 := rfl
  have hover : 2048 ≤ (exponent + 1075).toNat + 1 ↔ 971 < exponent := by omega
  have hbits : mantissa.log2 + 1 = Format.binary64.mantissaBits ↔ mantissa.log2 = 52 :=
    Nat.add_right_cancel_iff (n := 1) (k := 52)
  rw [UnpackedFloat.pack, hbias, htop]
  simp only [hover, hbits]

/-- A canonical mantissa and exponent are kept, unless the exponent is too great. -/
lemma unpack_pack_finite (h : Canonical mantissa exponent) :
    (Float.Model.pack (.finite sign mantissa exponent hpos)).unpack =
      if 971 < exponent then .infinity sign
      else .finite sign mantissa exponent hpos := by
  obtain ⟨hlt, hle, hnormal⟩ := h
  have hfull : mantissa.log2 = 52 ↔ 2 ^ 52 ≤ mantissa := by
    rw [Nat.log2_eq_iff (Nat.ne_of_gt hpos)]
    exact and_iff_left hlt
  have hunpack : (Float.Model.pack (.finite sign mantissa exponent hpos)).unpack =
      unpack .binary64 (UnpackedFloat.pack .binary64 (.finite sign mantissa exponent hpos)) :=
    rfl
  rw [hunpack, pack_finite]
  by_cases hover : 971 < exponent
  · rw [if_pos hover, if_pos hover, packedInfinity]
    exact unpack_packComponents sign _ _
  · rw [if_neg hover, if_neg hover]
    by_cases hlog : mantissa.log2 = 52
    · have he : (BitVec.ofNat 11 (exponent + 1075).toNat).toNat = (exponent + 1075).toNat := by
        rw [BitVec.toNat_ofNat, Nat.mod_eq_of_lt (by omega)]
      have hm : 2 ^ 52 + (BitVec.ofNat 52 mantissa).toNat = mantissa := by
        rw [BitVec.toNat_ofNat]
        omega
      rw [if_pos hlog, unpack_packComponents, if_neg, if_neg]
      · simp only [he, hm]
        congr 1
        omega
      · intro heq
        rw [heq, BitVec.toNat_zero] at he
        omega
      · intro heq
        rw [heq] at he
        have : (-1#11).toNat = 2047 := rfl
        omega
    · have hsmall : mantissa < 2 ^ 52 := by omega
      have hm : (BitVec.ofNat 52 mantissa).toNat = mantissa := by
        rw [BitVec.toNat_ofNat, Nat.mod_eq_of_lt hsmall]
      obtain rfl : exponent = -1074 := by omega
      rw [if_neg hlog, unpack_packComponents, if_neg (by decide), if_pos rfl]
      simp only [hm, hpos, dif_pos]

lemma unpack_pack_infinity (sign : Sign) :
    (Float.Model.pack (.infinity sign)).unpack = .infinity sign :=
  unpack_packComponents sign _ _

/-- Parts with a positive sign are a number that is not negative, unless the exponent is
the greatest one. -/
lemma isNonneg_packComponents {e : BitVec 11} (m : BitVec 52) (h : e ≠ -1#11) :
    IsNonneg (unpack .binary64 (packComponents .binary64 .positive e m)) := by
  rw [unpack_packComponents, if_neg h]
  split_ifs
  · exact .finite _
  · exact .zero _
  · exact .finite _

/-- Packing keeps a number that is not negative. -/
lemma IsNonneg.pack {x : UnpackedFloat} (h : IsNonneg x) :
    IsNonneg (Float.Model.pack x).unpack := by
  cases h with
  | zero sign =>
      have hzero : (Float.Model.pack (.zero sign)).unpack = .zero sign := unpack_packedZero
      rw [hzero]
      exact .zero sign
  | infinity =>
      rw [unpack_pack_infinity]
      exact .infinity
  | @finite mantissa exponent hpos =>
      have hunpack : (Float.Model.pack (.finite .positive mantissa exponent hpos)).unpack =
          unpack .binary64
            (UnpackedFloat.pack .binary64 (.finite .positive mantissa exponent hpos)) := rfl
      rw [hunpack, pack_finite]
      split_ifs with hover hlog
      · have hinfinity := unpack_packComponents .positive (-1#11) 0#52
        rw [packedInfinity]
        exact hinfinity ▸ .infinity
      · refine isNonneg_packComponents _ fun heq => ?_
        have he : (BitVec.ofNat 11 (exponent + 1075).toNat).toNat = 2047 :=
          congrArg BitVec.toNat heq
        rw [BitVec.toNat_ofNat] at he
        omega
      · exact isNonneg_packComponents _ (by decide)

end Packing

/-! ### Order -/

/-- Where a number that is not negative stands: zeros first, then the finite numbers by
exponent and mantissa, then infinity. -/
def rank : UnpackedFloat → ℕ ×ₗ ℤ ×ₗ ℕ
  | .infinity _ => toLex (2, toLex (0, 0))
  | .finite _ mantissa exponent _ => toLex (1, toLex (exponent, mantissa))
  | _ => toLex (0, toLex (0, 0))

section Order

variable {x y : UnpackedFloat}

/-- Finite numbers are compared by their exponents, then by their mantissas. -/
lemma isLE_then_iff (e e' : ℤ) (m m' : ℕ) :
    ((compare e e').then (compare m m')).isLE = true ↔ toLex (e, m) ≤ toLex (e', m') := by
  have hmantissa : (compare m m').isLE = true ↔ m ≤ m' := by
    rw [Ordering.isLE_iff_ne_gt]
    exact compare_le_iff_le
  rw [Prod.Lex.toLex_le_toLex, Ordering.isLE_then_iff_or, compare_lt_iff_lt,
    compare_eq_iff_eq, hmantissa]

/-- Numbers that are not negative are compared by their ranks. -/
lemma le_iff_rank (hx : IsNonneg x) (hy : IsNonneg y) :
    x.le y = true ↔ rank x ≤ rank y := by
  have hrank : ∀ {i j : ℕ} {p q : ℤ ×ₗ ℕ}, i < j → toLex (i, p) ≤ toLex (j, q) :=
    fun h => Prod.Lex.toLex_le_toLex.mpr (.inl h)
  have hrank' : ∀ {i j : ℕ} {p q : ℤ ×ₗ ℕ}, j < i → ¬ toLex (i, p) ≤ toLex (j, q) :=
    fun h => not_le_of_gt (Prod.Lex.toLex_lt_toLex.mpr (.inl h))
  cases hx with
  | zero sign =>
      cases hy with
      | zero sign' => exact iff_of_true rfl le_rfl
      | infinity => exact iff_of_true rfl (hrank (by decide))
      | finite => exact iff_of_true rfl (hrank (by decide))
  | infinity =>
      cases hy with
      | zero sign' => exact iff_of_false Bool.false_ne_true (hrank' (by decide))
      | infinity => exact iff_of_true rfl le_rfl
      | finite => exact iff_of_false Bool.false_ne_true (hrank' (by decide))
  | @finite m e =>
      cases hy with
      | zero sign' => exact iff_of_false Bool.false_ne_true (hrank' (by decide))
      | infinity => exact iff_of_true rfl (hrank (by decide))
      | @finite m' e' =>
          have hsame : toLex (1, toLex (e, m)) ≤ toLex (1, toLex (e', m')) ↔
              toLex (e, m) ≤ toLex (e', m') := by
            simp [Prod.Lex.toLex_le_toLex]
          rw [rank, rank, hsame, ← isLE_then_iff]
          rfl

lemma rank_zero_le (sign : Sign) (x : UnpackedFloat) : rank (.zero sign) ≤ rank x := by
  cases x with
  | zero sign => exact le_rfl
  | notANumber => exact le_rfl
  | infinity sign => exact Prod.Lex.toLex_le_toLex.mpr (.inl Nat.two_pos)
  | finite sign m e hm => exact Prod.Lex.toLex_le_toLex.mpr (.inl Nat.one_pos)

lemma rank_le_infinity (sign : Sign) (x : UnpackedFloat) : rank x ≤ rank (.infinity sign) := by
  cases x with
  | zero sign => exact rank_zero_le _ _
  | notANumber => exact Prod.Lex.toLex_le_toLex.mpr (.inl Nat.two_pos)
  | infinity sign => exact le_rfl
  | finite sign m e hm => exact Prod.Lex.toLex_le_toLex.mpr (.inl Nat.one_lt_two)

end Order

/-! ### Rounding -/

section Rounding

variable {sign : Sign} {mantissa shift : Nat} {exponent target : Int}

lemma mantissa_shiftRight (extended : ExtendedMantissa) (shift : Nat) :
    (extended >>> shift).mantissa = extended.mantissa / 2 ^ shift := by
  induction shift with
  | zero => exact (Nat.div_one _).symm
  | succ shift ih =>
      have hstep : (extended >>> (shift + 1)).mantissa = (extended >>> shift).mantissa / 2 :=
        rfl
      rw [hstep, ih, Nat.div_div_eq_div_mul, pow_succ]

/-- Rounding takes a mantissa or the next one. -/
lemma roundedMantissa_bounds (extended : ExtendedMantissa) :
    extended.mantissa ≤ extended.roundedMantissa ∧
      extended.roundedMantissa ≤ extended.mantissa + 1 := by
  obtain ⟨m, roundBit, stickyBit⟩ := extended
  have hparity : m % 2 ≤ 1 := Nat.le_of_lt_succ (Nat.mod_lt m (by decide))
  cases roundBit <;> cases stickyBit
  · exact ⟨le_rfl, Nat.le_succ m⟩
  · exact ⟨le_rfl, Nat.le_succ m⟩
  · exact ⟨Nat.le_add_right m _, Nat.add_le_add_left hparity m⟩
  · exact ⟨Nat.le_succ m, le_rfl⟩

/-- The exponent that a double takes for this size. -/
lemma targetExponent_eq (mantissa : Nat) (exponent : Int) :
    Format.binary64.targetExponent (totalExponent mantissa exponent) =
      max (mantissa.log2 + exponent - 52) (-1074) := by
  have hbits : (Format.binary64.mantissaBits : Int) = 53 := rfl
  have hmin : Format.binary64.minExponent = -1074 := rfl
  rw [Format.targetExponent, totalExponent, hbits, hmin]
  omega

/-- An exact mantissa is shifted to its exponent. -/
lemma shiftToTargetExponent_exact
    (h : Format.binary64.targetExponent (totalExponent mantissa exponent) = target) :
    shiftToTargetExponent .binary64 mantissa exponent .exact =
      ((⟨mantissa, false, false⟩ : ExtendedMantissa) >>> (target - exponent).toNat,
        exponent + (target - exponent).toNat) := by
  rw [shiftToTargetExponent, h]
  rfl

/-- A mantissa of at most 53 bits is not shifted. -/
lemma shiftToTargetExponent_of_lt (hlt : mantissa < 2 ^ 53) (hle : -1074 ≤ exponent) :
    shiftToTargetExponent .binary64 mantissa exponent .exact =
      (⟨mantissa, false, false⟩, exponent) := by
  have hlog : mantissa.log2 ≤ 52 := by
    by_cases hzero : mantissa = 0
    · simp [hzero]
    · exact Nat.le_of_lt_succ ((Nat.log2_lt hzero).mpr hlt)
  rw [shiftToTargetExponent_exact rfl, targetExponent_eq,
    Int.toNat_of_nonpos (by omega)]
  exact congrArg _ (add_zero exponent)

/-- A mantissa that is rounded up to 54 bits is halved. -/
lemma shiftToTargetExponent_two_pow (hle : -1074 ≤ exponent) :
    shiftToTargetExponent .binary64 (2 ^ 53) exponent .exact =
      (⟨2 ^ 52, false, false⟩, exponent + 1) := by
  have hone : (max (((2 ^ 53 : Nat).log2 : Int) + exponent - 52) (-1074) - exponent).toNat =
      1 := by
    rw [Nat.log2_two_pow]
    omega
  rw [shiftToTargetExponent_exact rfl, targetExponent_eq, hone]
  rfl

/-- What is left of a mantissa at its exponent has at most 53 bits, and all of them unless
the exponent is the least one. -/
lemma div_two_pow_bounds (hpos : 0 < mantissa)
    (htarget : Format.binary64.targetExponent (totalExponent mantissa exponent) = target)
    (hshift : exponent + shift = target) :
    mantissa / 2 ^ shift < 2 ^ 53 ∧ -1074 ≤ target ∧
      (2 ^ 52 ≤ mantissa / 2 ^ shift ∨ target = -1074) := by
  rw [targetExponent_eq] at htarget
  have hlow := Nat.log2_self_le (Nat.ne_of_gt hpos)
  have hhigh := Nat.lt_log2_self (n := mantissa)
  refine ⟨?_, by omega, ?_⟩
  · rw [Nat.div_lt_iff_lt_mul (Nat.two_pow_pos shift), ← pow_add]
    exact hhigh.trans_le (Nat.pow_le_pow_right (by decide) (by omega))
  · by_cases hmin : target = -1074
    · exact .inr hmin
    · left
      rw [Nat.le_div_iff_mul_le (Nat.two_pow_pos shift), ← pow_add]
      exact (Nat.pow_le_pow_right (by decide) (by omega)).trans hlow

/-- Rounding shifts a mantissa to its exponent, rounds it and shifts it again. -/
lemma roundWithAccuracy_eq {accuracy : Accuracy} {extended : ExtendedMantissa} {m : Nat}
    {e : Int} (hm : 0 < m)
    (hfirst : shiftToTargetExponent .binary64 mantissa exponent accuracy = (extended, target))
    (hsecond : shiftToTargetExponent .binary64 extended.roundedMantissa target .exact =
      (⟨m, false, false⟩, e)) :
    roundWithAccuracy .binary64 sign mantissa exponent accuracy = .finite sign m e hm := by
  rw [roundWithAccuracy]
  simp only [hfirst, hsecond]
  exact dif_neg (Nat.ne_of_gt hm)

/-- What is rounded at its exponent stays there, or carries into the next one. -/
lemma exists_rounded {accuracy : Accuracy} {extended : ExtendedMantissa} (sign : Sign)
    (hfirst : shiftToTargetExponent .binary64 mantissa exponent accuracy = (extended, target))
    (hpos : 0 < extended.roundedMantissa) (hbits : extended.mantissa < 2 ^ 53)
    (hle : -1074 ≤ target) (hnormal : 2 ^ 52 ≤ extended.mantissa ∨ target = -1074) :
    ∃ m e hm, roundWithAccuracy .binary64 sign mantissa exponent accuracy = .finite sign m e hm ∧
      Canonical m e ∧ ((e = target ∧ m = extended.roundedMantissa) ∨
        (e = target + 1 ∧ m = 2 ^ 52 ∧ extended.roundedMantissa = 2 ^ 53)) := by
  obtain ⟨hlow, hhigh⟩ := roundedMantissa_bounds extended
  by_cases hlt : extended.roundedMantissa < 2 ^ 53
  · exact ⟨extended.roundedMantissa, target, hpos,
      roundWithAccuracy_eq hpos hfirst (shiftToTargetExponent_of_lt hlt hle),
      ⟨hlt, hle, by omega⟩, .inl ⟨rfl, rfl⟩⟩
  · have hcarry : extended.roundedMantissa = 2 ^ 53 := by omega
    refine ⟨2 ^ 52, target + 1, by decide, roundWithAccuracy_eq (by decide) hfirst ?_,
      ⟨by decide, by omega, .inl le_rfl⟩, .inr ⟨rfl, rfl, hcarry⟩⟩
    rw [hcarry, shiftToTargetExponent_two_pow hle]

/-- **Rounding**: the exponent is the one for the size and the mantissa is not less than
what is left of it there, or the exponent is one more. -/
lemma exists_roundWithAccuracy (sign : Sign)
    (htarget : Format.binary64.targetExponent (totalExponent mantissa exponent) = target)
    (hshift : exponent + shift = target) (hleft : 0 < mantissa / 2 ^ shift) :
    ∃ m e hm, roundWithAccuracy .binary64 sign mantissa exponent .exact = .finite sign m e hm ∧
      Canonical m e ∧ (target < e ∨ (e = target ∧ mantissa / 2 ^ shift ≤ m)) := by
  have hpos : 0 < mantissa := Nat.pos_of_ne_zero fun h => by simp [h] at hleft
  obtain ⟨hbits, hle, hnormal⟩ := div_two_pow_bounds hpos htarget hshift
  obtain ⟨extended, hextended⟩ : ∃ extended,
      (⟨mantissa, false, false⟩ : ExtendedMantissa) >>> shift = extended := ⟨_, rfl⟩
  have hfirst : shiftToTargetExponent .binary64 mantissa exponent .exact =
      (extended, target) := by
    have htoNat : (target - exponent).toNat = shift := by omega
    rw [shiftToTargetExponent_exact htarget, htoNat, hshift, hextended]
  have hfloor : extended.mantissa = mantissa / 2 ^ shift := by
    rw [← hextended, mantissa_shiftRight]
  rw [← hfloor] at hbits hnormal hleft ⊢
  obtain ⟨hlow, -⟩ := roundedMantissa_bounds extended
  obtain ⟨m, e, hm, hround, hcanonical, hkept⟩ :=
    exists_rounded sign hfirst (hleft.trans_le hlow) hbits hle hnormal
  exact ⟨m, e, hm, hround, hcanonical, by omega⟩

/-- A number that is not less than a canonical one stays so when it is rounded. -/
lemma exists_round (sign : Sign) {low : Nat} {least : Int} {gap : Nat}
    (hlow : Canonical low least) (hpos : 0 < low) (hgap : exponent + gap = least)
    (hle : low * 2 ^ gap ≤ mantissa) :
    ∃ m e hm, UnpackedFloat.round .binary64 sign mantissa exponent = .finite sign m e hm ∧
      Canonical m e ∧ toLex (least, low) ≤ toLex (e, m) := by
  have hmantissa : mantissa ≠ 0 :=
    Nat.ne_of_gt ((Nat.mul_pos hpos (Nat.two_pow_pos gap)).trans_le hle)
  obtain ⟨target, htarget⟩ : ∃ target,
      Format.binary64.targetExponent (totalExponent mantissa exponent) = target := ⟨_, rfl⟩
  have hmax := targetExponent_eq mantissa exponent
  rw [htarget] at hmax
  -- the exponent of the sum is not less than the one of the canonical number
  have hleast : least ≤ target := by
    rcases hlow.normal with hnormal | hmin
    · have hlog : 52 + gap ≤ mantissa.log2 := by
        rw [Nat.le_log2 hmantissa, pow_add]
        exact (Nat.mul_le_mul_right _ hnormal).trans hle
      omega
    · omega
  -- so nothing is shifted to the left
  have hround : UnpackedFloat.round .binary64 sign mantissa exponent =
      roundWithAccuracy .binary64 sign mantissa exponent .exact := by
    have hno : (exponent - target).toNat = 0 := by omega
    rw [UnpackedFloat.round, htarget, decreaseExponent, hno, Nat.shiftLeft_zero]
    simp
  obtain ⟨shift, hshift⟩ : ∃ shift : Nat, exponent + shift = target :=
    ⟨(target - exponent).toNat, by omega⟩
  have hleft : low ≤ mantissa / 2 ^ shift ∨ (least < target ∧ 0 < mantissa / 2 ^ shift) := by
    rcases hleast.eq_or_lt with heq | hlt
    · obtain rfl : shift = gap := by omega
      exact .inl ((Nat.le_div_iff_mul_le (Nat.two_pow_pos shift)).mpr hle)
    · have hle := hlow.le_exponent
      have hnormal := (div_two_pow_bounds (Nat.pos_of_ne_zero hmantissa) htarget hshift).2.2
      exact .inr ⟨hlt, by omega⟩
  obtain ⟨m, e, hm, hresult, hcanonical, hrank⟩ :=
    exists_roundWithAccuracy sign htarget hshift (by omega)
  refine ⟨m, e, hm, hround.trans hresult, hcanonical, ?_⟩
  rw [Prod.Lex.toLex_le_toLex]
  change least < e ∨ (least = e ∧ low ≤ m)
  omega

end Rounding

/-! ### Sums and products -/

section Unpacked

variable {x y : UnpackedFloat} {m m' : Nat} {e e' : Int}

/-- What is rounded keeps a positive sign. -/
lemma isNonneg_roundWithAccuracy (m : Nat) (e : Int) (accuracy : Accuracy) :
    IsNonneg (roundWithAccuracy .binary64 .positive m e accuracy) := by
  rw [roundWithAccuracy]
  dsimp only
  split_ifs
  · exact .zero _
  · exact .finite _

/-- Two positive finite numbers are added at the smaller exponent. -/
lemma add_finite (hm : 0 < m) (hm' : 0 < m') :
    UnpackedFloat.add .binary64 (.finite .positive m e hm) (.finite .positive m' e' hm') =
      UnpackedFloat.round .binary64 .positive
        (m * 2 ^ (e - min e e').toNat + m' * 2 ^ (e' - min e e').toNat) (min e e') := by
  have hpos : 0 < m * 2 ^ (e - min e e').toNat + m' * 2 ^ (e' - min e e').toNat :=
    Nat.add_pos_left (Nat.mul_pos hm (Nat.two_pow_pos _)) _
  have hsum : Sign.positive.apply (m <<< (e - min e e').toNat : Nat) +
      Sign.positive.apply (m' <<< (e' - min e e').toNat : Nat) =
        ((m * 2 ^ (e - min e e').toNat + m' * 2 ^ (e' - min e e').toNat : Nat) : Int) := by
    rw [Nat.shiftLeft_eq, Nat.shiftLeft_eq, Nat.cast_add]
    rfl
  rw [UnpackedFloat.add]
  simp only [decreaseExponent, hsum]
  rw [UnpackedFloat.normalize, Int.compare_eq_gt.mpr (Int.natCast_pos.mpr hpos),
    Int.toNat_natCast]

/-- Infinity takes up what is added to it. -/
lemma infinity_add (hy : IsNonneg y) :
    UnpackedFloat.add .binary64 (.infinity .positive) y = .infinity .positive := by
  cases hy <;> rfl

/-- A sum of numbers that are not negative is not negative. -/
lemma IsNonneg.add (hx : IsNonneg x) (hy : IsNonneg y) :
    IsNonneg (UnpackedFloat.add .binary64 x y) := by
  cases hx with
  | infinity =>
      rw [infinity_add hy]
      exact .infinity
  | zero sign =>
      cases hy with
      | zero sign' =>
          rw [UnpackedFloat.add]
          split_ifs
          · exact .zero _
          · exact .zero _
      | infinity => exact .infinity
      | finite hm' => exact .finite hm'
  | finite hm =>
      cases hy with
      | zero sign' => exact .finite hm
      | infinity => exact .infinity
      | finite hm' =>
          rw [add_finite]
          exact isNonneg_roundWithAccuracy _ _ _

/-- A product of numbers that are not negative is not negative, if the second one is
finite and not zero. -/
lemma IsNonneg.mul (hx : IsNonneg x) (hm : 0 < m) :
    IsNonneg (UnpackedFloat.mul .binary64 x (.finite .positive m e hm)) := by
  cases hx with
  | zero sign => exact .zero _
  | infinity => exact .infinity
  | finite => exact isNonneg_roundWithAccuracy _ _ _

/-- A sum of two positive finite numbers is not less than the first one. -/
lemma rank_le_add_finite (hm : 0 < m) (hm' : 0 < m') (h : Canonical m e) :
    rank (.finite .positive m e hm) ≤ rank (Float.Model.pack
      (UnpackedFloat.add .binary64 (.finite .positive m e hm)
        (.finite .positive m' e' hm'))).unpack := by
  have hgap : min e e' + ((e - min e e').toNat : Int) = e := by omega
  obtain ⟨low, least, hlow, hround, hcanonical, hrank⟩ :=
    exists_round .positive h hm hgap
      (Nat.le_add_right (m * 2 ^ (e - min e e').toNat) (m' * 2 ^ (e' - min e e').toNat))
  rw [add_finite, hround, unpack_pack_finite hcanonical]
  split_ifs
  · exact rank_le_infinity _ _
  · exact Prod.Lex.toLex_le_toLex.mpr (.inr ⟨rfl, hrank⟩)

/-- An integer as a double is not negative, if it is a natural number. -/
lemma isNonneg_ofInt (n : Nat) : IsNonneg (UnpackedFloat.ofInt .binary64 n) := by
  rw [UnpackedFloat.ofInt, UnpackedFloat.normalize]
  cases n with
  | zero => exact .zero _
  | succ n =>
      rw [Int.compare_eq_gt.mpr (Int.natCast_pos.mpr n.succ_pos)]
      exact isNonneg_roundWithAccuracy _ _ _

/-- A natural number in scientific notation is shifted to the left and rounded. -/
lemma ofScientific_nat {n : Nat} (hpos : 0 < n) :
    UnpackedFloat.ofScientific .binary64 n (Int.ofNat 0) =
      roundWithAccuracy .binary64 .positive (n * 2 ^ 53) (-53) .exact := by
  have hexponentBits : (2 : Int) ^ Format.binary64.exponentBits = 2048 := rfl
  have hhigh : ¬ Int.ofNat 0 > 2048 := by decide
  have hlow : ¬ Int.ofNat 0 < -(2048 + (n.log2 : Int)) :=
    not_lt_of_ge (Int.neg_nonpos_of_nonneg (by positivity))
  have hproduct : UnpackedFloat.ofScientific .binary64 n (Int.ofNat 0) =
      roundWithAccuracy .binary64 .positive ((n <<< 53) * 10 ^ 0) (-53 + 0) .exact := by
    rw [UnpackedFloat.ofScientific, dif_neg hpos.ne', hexponentBits, if_neg hhigh, if_neg hlow,
      if_pos (by decide)]
    rfl
  rw [hproduct, Nat.shiftLeft_eq, pow_zero, Nat.mul_one, add_zero]

/-- A natural number in scientific notation is not negative. -/
lemma isNonneg_ofScientific (n : Nat) :
    IsNonneg (UnpackedFloat.ofScientific .binary64 n (Int.ofNat 0)) := by
  rcases n.eq_zero_or_pos with rfl | hpos
  · rw [UnpackedFloat.ofScientific, dif_pos rfl]
    exact .zero _
  · rw [ofScientific_nat hpos]
    exact isNonneg_roundWithAccuracy _ _ _

end Unpacked

/-- A double is kept when it is unpacked and packed. -/
lemma pack_unpack (x : Float.Model) : Float.Model.pack x.unpack = x := by
  obtain ⟨bits, hvalid⟩ := x
  have hbits : UnpackedFloat.pack .binary64 (unpack .binary64 bits.toBitVec) = bits.toBitVec :=
    pack_unpack_of_valid hvalid
  simp only [Float.Model.pack, Float.Model.unpack, hbits]

/-- A sum of doubles that are not negative is not less than the first one. -/
lemma rank_le_add {x : Float.Model} {y : UnpackedFloat} (hx : IsNonneg x.unpack)
    (hy : IsNonneg y) :
    rank x.unpack ≤
      rank (Float.Model.pack (UnpackedFloat.add .binary64 x.unpack y)).unpack := by
  cases hx' : x.unpack with
  | notANumber =>
      rw [hx'] at hx
      cases hx
  | zero sign => exact rank_zero_le _ _
  | infinity sign =>
      rw [hx'] at hx
      cases hx
      rw [infinity_add hy, unpack_pack_infinity]
  | finite sign m e hm =>
      rw [hx'] at hx
      cases hx
      cases hy with
      | zero sign' =>
          have hsame : UnpackedFloat.add .binary64 (.finite .positive m e hm) (.zero sign') =
              .finite .positive m e hm := rfl
          rw [hsame, ← hx', pack_unpack]
      | infinity =>
          have hsame : UnpackedFloat.add .binary64 (.finite .positive m e hm)
              (.infinity .positive) = .infinity .positive := rfl
          rw [hsame, unpack_pack_infinity]
          exact rank_le_infinity _ _
      | finite hm' => exact rank_le_add_finite hm hm' (canonical_of_unpack hx')

/-! ### Doubles -/

section Doubles

variable {a b c : Float}

lemma unpack_zero : (0 : Float).toModel.unpack = .zero .positive := by
  have hbits : (0 : Float).toModel.toBits = 0 := by decide +kernel
  rw [Float.Model.unpack, hbits]
  rfl

/-- A double is not negative exactly when its parts tell so. -/
lemma nonneg_iff : 0 ≤ a ↔ IsNonneg a.toModel.unpack := by
  have hle : 0 ≤ a ↔ (UnpackedFloat.zero .positive).le a.toModel.unpack = true := by
    rw [← unpack_zero]
    exact decide_eq_true_iff
  rw [hle]
  cases a.toModel.unpack with
  | notANumber => exact iff_of_false Bool.false_ne_true nofun
  | zero sign => exact iff_of_true rfl (.zero sign)
  | infinity sign =>
      cases sign with
      | positive => exact iff_of_true rfl .infinity
      | negative => exact iff_of_false Bool.false_ne_true nofun
  | finite sign m e hm =>
      cases sign with
      | positive => exact iff_of_true rfl (.finite hm)
      | negative => exact iff_of_false Bool.false_ne_true nofun

/-- The order of doubles that are not negative is the one of their ranks. -/
lemma le_iff (ha : 0 ≤ a) (hb : 0 ≤ b) :
    a ≤ b ↔ rank a.toModel.unpack ≤ rank b.toModel.unpack := by
  rw [← le_iff_rank (nonneg_iff.mp ha) (nonneg_iff.mp hb)]
  exact decide_eq_true_iff

/-- A positive double that is finite has a mantissa and an exponent. -/
lemma exists_finite (hpos : 0 < b) (hfinite : b.isFinite = true) :
    ∃ m e hm, b.toModel.unpack = .finite .positive m e hm := by
  have hlt : (UnpackedFloat.zero .positive).lt b.toModel.unpack = true := by
    rw [← unpack_zero]
    exact of_decide_eq_true hpos
  have hfinite' : b.toModel.unpack.isFinite = true := hfinite
  cases hb : b.toModel.unpack with
  | notANumber =>
      rw [hb] at hfinite'
      cases hfinite'
  | infinity sign =>
      rw [hb] at hfinite'
      cases hfinite'
  | zero sign =>
      rw [hb] at hlt
      cases hlt
  | finite sign m e hm =>
      rw [hb] at hlt
      cases sign with
      | positive => exact ⟨m, e, hm, rfl⟩
      | negative => cases hlt

lemma nonneg_of_pos (hpos : 0 < b) (hfinite : b.isFinite = true) : 0 ≤ b := by
  obtain ⟨m, e, hm, hb⟩ := exists_finite hpos hfinite
  rw [nonneg_iff, hb]
  exact .finite hm

/-- A sum of doubles that are not negative is not negative either. -/
theorem add_nonneg (ha : 0 ≤ a) (hb : 0 ≤ b) : 0 ≤ a + b :=
  nonneg_iff.mpr ((nonneg_iff.mp ha).add (nonneg_iff.mp hb)).pack

/-- **Sums**: nothing is greater than its sum with a double that is not negative, although
the sum is rounded. -/
theorem le_add (ha : 0 ≤ a) (hb : 0 ≤ b) : a ≤ a + b :=
  (le_iff ha (add_nonneg ha hb)).mpr (rank_le_add (nonneg_iff.mp ha) (nonneg_iff.mp hb))

theorem le_refl (ha : 0 ≤ a) : a ≤ a :=
  (le_iff ha ha).mpr le_rfl

theorem le_trans (ha : 0 ≤ a) (hb : 0 ≤ b) (hc : 0 ≤ c) (hab : a ≤ b) (hbc : b ≤ c) :
    a ≤ c :=
  (le_iff ha hc).mpr (((le_iff ha hb).mp hab).trans ((le_iff hb hc).mp hbc))

/-- **Products**: a double that is not negative stays so when it is multiplied by a finite
positive one. -/
theorem mul_nonneg (ha : 0 ≤ a) (hpos : 0 < b) (hfinite : b.isFinite = true) :
    0 ≤ a * b := by
  obtain ⟨m, e, hm, hb⟩ := exists_finite hpos hfinite
  have hproduct := ((nonneg_iff.mp ha).mul hm (e := e)).pack
  rw [← hb] at hproduct
  exact nonneg_iff.mpr hproduct

/-- A count as a double is not negative. -/
theorem ofNat_nonneg (n : Nat) : 0 ≤ Float.ofNat n := by
  have hpacked : ∀ {x : UnpackedFloat}, IsNonneg x → 0 ≤ Float.ofModel (Float.Model.pack x) :=
    fun h => nonneg_iff.mpr h.pack
  have hone : (0 : Float) < Float.exactlyRepresentablePowersOfTen[0] ∧
      Float.exactlyRepresentablePowersOfTen[0].isFinite = true := by decide +kernel
  have hscientific : Float.ofNat n = Float.ofScientific n false 0 := rfl
  rw [hscientific, Float.ofScientific]
  simp only [Bool.false_eq_true, if_false]
  split_ifs with hsmall
  · -- a small count is multiplied by the zeroth power of ten
    have hcount : 0 ≤ n.toUInt64.toFloat := hpacked (isNonneg_ofInt n.toUInt64.toNat)
    exact mul_nonneg hcount hone.1 hone.2
  · exact hpacked (isNonneg_ofScientific n)

end Doubles

end ScriptLint.Doubles
