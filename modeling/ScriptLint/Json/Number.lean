import ScriptLint.Decimal.Layout
import ScriptLint.Decimal.Reading

/-!
JSON numbers.

* `Number`: a number as it is written.
* `Number.ofNat`, `Number.ofDigits`, `Number.text`: numbers to be written.
* `Number.digits`: the exact value.
* `Number.held`: the digits that a reader holds in 64 bits.
* `Number.toFloat?`: the double for a number, taken from the held digits by at most
  two operations on doubles. It is the nearest double if the held digits and the
  power of ten are doubles themselves and one operation is enough, and else may miss
  it by little.
-/

namespace ScriptLint.Json

/-- A number as it is written. -/
structure Number where
  negative : Bool
  /-- The digits before the point. -/
  whole : List Char
  /-- The digits behind the point. Without digits there is no point either. -/
  fraction : List Char
  exponent? : Option Int
deriving DecidableEq, Repr

namespace Number

/-! ### Writing -/

/-- A natural number. -/
def ofNat (n : Nat) : Number :=
  ⟨false, Nat.toDigits 10 n, [], none⟩

/-- The powers of ten of the leading digit, from the first to the second, for which a
decimal has no exponent. -/
def positionalPowers : Int × Int := (-5, 15)

/-- A decimal, with a point or an exponent. With an exponent, one digit stands before
the point. -/
def ofDigits (negative : Bool) (digits : Decimal.Digits) : Number :=
  let power := digits.leading
  if digits.value = 0 ||
      (positionalPowers.1 ≤ power && power ≤ positionalPowers.2) then
    let (whole, fraction) := Decimal.positionalDigits true digits
    ⟨negative, whole, fraction, none⟩
  else
    let all := Nat.toDigits 10 digits.value
    ⟨negative, all.take 1, all.drop 1, some power⟩

/-- An exponent, whose sign is always written. -/
def exponentText (exponent : Int) : List Char :=
  'e' :: (if exponent < 0 then '-' else '+') :: Nat.toDigits 10 exponent.natAbs

/-- The text of a number. -/
def text (number : Number) : List Char :=
  Decimal.signText number.negative ++ Decimal.pointed (number.whole, number.fraction) ++
    (number.exponent?.map exponentText).getD []

/-! ### The value -/

/-- The number is written without a point and an exponent. -/
def isWhole (number : Number) : Bool :=
  number.fraction.isEmpty && number.exponent?.isNone

/-- The exact value of a number without its sign. -/
def digits (number : Number) : Decimal.Digits :=
  ⟨Decimal.natOfDigits (number.whole ++ number.fraction),
    number.exponent?.getD 0 - (number.fraction.length : Int)⟩

/-- A natural number that fits into 64 bits, written as a whole number without a
sign. -/
def toWord? (number : Number) : Option Nat :=
  let value := Decimal.natOfDigits number.whole
  if number.isWhole && !number.negative && value < UInt64.size then some value else none

/-! ### The double -/

/-- Append digits to `n` as long as the number fits into 64 bits: the number, and the
digits from the first that does not fit. -/
def holdFrom : Nat → List Char → Nat × List Char
  | n, [] => (n, [])
  | n, c :: rest =>
    let next := 10 * n + Decimal.digitValue c
    if next < UInt64.size then holdFrom next rest else (n, c :: rest)

/-- The digits of a number that are held in 64 bits, as a decimal. Of the digits
before the point those that do not fit count in the power of ten, of those behind it
they are forgotten. -/
def held (number : Number) : Decimal.Digits :=
  let (whole, dropped) := holdFrom 0 number.whole
  let (value, forgotten) := holdFrom whole number.fraction
  ⟨value,
    number.exponent?.getD 0 + dropped.length -
      (number.fraction.length - forgotten.length : Nat)⟩

/-- The greatest power of ten that is below the greatest double. -/
def greatestPower : Nat := 308

/-- A power of ten as a double. -/
def powerOfTen (n : Nat) : Float :=
  Float.ofScientific 1 false n

/-- A double below `10 ^ 20` times a power of ten. For the lowest powers two
divisions are needed, and below them nothing is left. -/
def scale (x : Float) (power : Int) : Float :=
  let below := (-power).toNat
  if 0 ≤ power then
    if power ≤ greatestPower then x * powerOfTen power.toNat else 1.0 / 0.0
  else if below ≤ greatestPower then
    x / powerOfTen below
  else if below ≤ 2 * greatestPower then
    x / powerOfTen greatestPower / powerOfTen (below - greatestPower)
  else
    0.0

/-- The double for a number; none if the number is too great for one. -/
def toFloat? (number : Number) : Option Float :=
  let held := number.held
  let size := if held.value = 0 then 0.0 else scale (Float.ofNat held.value) held.exponent
  if size.isFinite then some (if number.negative then -size else size) else none

end Number

end ScriptLint.Json
