/-!
The exact value of a double.

* `Exact`: not a number, an infinity, or a sign with `m · 2 ^ q`.
* `Exact.ofFloat`: taken from the bits.
* `Scaled`: a fraction of natural numbers; `scaleBy` multiplies with powers of
  two and ten without losing anything.
-/

namespace ScriptLint.Decimal

/-! ### Doubles -/

/-- The exact value of a double. -/
inductive Exact where
  | nan
  | infinite (negative : Bool)
  /-- The value is `significand · 2 ^ exponent` with this sign. -/
  | finite (negative : Bool) (significand : Nat) (exponent : Int)
deriving DecidableEq, Repr

/-- The lowest power of two in the significand of any double. -/
def leastExponent : Int := -1074

/-- The number of fractions that can be stored, in 52 bits. -/
def fractionSize : Nat := 0x10000000000000

/-- The value that the 64 bits stand for: a sign, eleven bits of exponent, and
52 bits of fraction, which have a leading one unless the exponent is zero. -/
def Exact.ofBits (bits : UInt64) : Exact :=
  let code := bits.toNat
  let negative := 0x8000000000000000 ≤ code
  let biased := code / fractionSize % 2048
  let fraction := code % fractionSize
  if biased = 2047 then
    if fraction = 0 then .infinite negative else .nan
  else if biased = 0 then
    .finite negative fraction leastExponent
  else
    .finite negative (fractionSize + fraction) (leastExponent + (biased - 1 : Nat))

/-- The exact value of a double. -/
def Exact.ofFloat (x : Float) : Exact :=
  .ofBits x.toBits

/-! ### Fractions -/

/-- A fraction of natural numbers. -/
structure Scaled where
  num : Nat
  den : Nat
deriving DecidableEq, Repr

/-- The fraction `n · 2 ^ twos · 10 ^ tens`. -/
def scaleBy (n : Nat) (twos tens : Int) : Scaled :=
  ⟨n * Nat.pow 2 twos.toNat * Nat.pow 10 tens.toNat,
    Nat.pow 2 (-twos).toNat * Nat.pow 10 (-tens).toNat⟩

/-- The denominator of such a fraction is not zero. -/
theorem scaleBy_den_pos (n : Nat) (twos tens : Int) : 0 < (scaleBy n twos tens).den :=
  Nat.mul_pos (Nat.pow_pos (by decide)) (Nat.pow_pos (by decide))

end ScriptLint.Decimal
