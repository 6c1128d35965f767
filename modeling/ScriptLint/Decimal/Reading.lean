import ScriptLint.Decimal.Shortest

/-!
The double nearest to a decimal.

* `Digits.toFloat`: the nearest double; beyond the largest it is infinite.
* `digitValue?`, `natOfDigits`: numbers from digit characters.
-/

namespace ScriptLint.Decimal

/-- The value of a decimal digit. -/
def digitValue (c : Char) : Nat :=
  c.toNat - '0'.toNat

/-- The number that decimal digits stand for; no digits stand for zero. -/
def natOfDigits (digits : List Char) : Nat :=
  digits.foldl (fun n c => 10 * n + digitValue c) 0

/-- A power of ten above every double. -/
def aboveAll : Int := 400

/-- A power of ten so low that every number below it is nearest to zero. -/
def belowAll : Int := -400

/-- The double nearest to the decimal with this sign. Decimals far outside the
range of doubles are decided by their leading digit alone. -/
def Digits.toFloat (negative : Bool) (digits : Digits) : Float :=
  let size :=
    if digits.value = 0 || digits.leading < belowAll then 0.0
    else if aboveAll < digits.leading then 1.0 / 0.0
    else if digits.exponent < 0 then
      Float.ofScientific digits.value true digits.exponent.natAbs
    else
      Float.ofScientific digits.value false digits.exponent.natAbs
  if negative then -size else size

end ScriptLint.Decimal
