import ScriptLint.Decimal.Binary
import ScriptLint.Decimal.Rounding

/-!
The shortest decimal that reads back as a given double.

* `Digits`: a decimal `value · 10 ^ exponent`, without trailing zeros after
  `Digits.normal`.
* `Span`: the reals that round to a double, as a fraction with its two ends.
* `shortest`: among the decimals of the span, one with the fewest digits, and of
  these the nearest to the double.

For a number of digits only the two neighbours of the double on the grid of such
decimals have to be tried: if any point of a grid lies in the span, one of the two
does.
-/

namespace ScriptLint.Decimal

/-- The decimal `value · 10 ^ exponent`. -/
structure Digits where
  value : Nat
  exponent : Int
deriving DecidableEq, Repr

namespace Digits

/-- Divide by ten as long as nothing is lost, at most `fuel` times. -/
def strip : Nat → Digits → Digits
  | 0, digits => digits
  | fuel + 1, digits =>
    if digits.value % 10 = 0 then
      strip fuel ⟨digits.value / 10, digits.exponent + 1⟩
    else
      digits

/-- The same decimal without trailing zeros; zero has the exponent zero. -/
def normal (digits : Digits) : Digits :=
  if digits.value = 0 then ⟨0, 0⟩
  else strip (digits.value.log2 + 1) digits

/-- The number of decimal digits of the value. -/
def length (digits : Digits) : Nat :=
  (Nat.toDigits 10 digits.value).length

/-- The power of ten of the leading digit. -/
def leading (digits : Digits) : Int :=
  digits.exponent + (digits.length : Int) - 1

end Digits

/-! ### The span of a double -/

/-- A double `significand · 2 ^ exponent` in a grid of decimals, together with the
two ends of the reals that round to it. All four are multiples of one unit. -/
structure Span where
  /-- The double. -/
  mid : Nat
  /-- The lower end. -/
  low : Nat
  /-- The upper end. -/
  high : Nat
  /-- The distance between two points of the grid. -/
  grid : Nat
  /-- The ends themselves round to the double. -/
  closed : Bool
deriving DecidableEq, Repr

namespace Span

/-- The span of `significand · 2 ^ exponent` over the multiples of `10 ^ tens`. The
gap below the least significand of a binade is half as wide as the one above. The
ends round to the double when its significand is even. -/
def ofDouble (significand : Nat) (exponent tens : Int) : Span :=
  let below :=
    if significand = fractionSize ∧ leastExponent < exponent then 1 else 2
  let part (n : Nat) : Nat := (scaleBy n (exponent - 2) (-tens)).num
  { mid := part (4 * significand)
    low := part (4 * significand - below)
    high := part (4 * significand + 2)
    grid := (scaleBy 1 (exponent - 2) (-tens)).den
    closed := significand % 2 == 0 }

/-- The multiple `n` of the grid lies in the span. -/
def holds (span : Span) (n : Nat) : Bool :=
  if span.closed then span.low ≤ n * span.grid && n * span.grid ≤ span.high
  else span.low < n * span.grid && n * span.grid < span.high

/-- The point of the grid that is taken for the double: of its two neighbours the
one in the span, of two the nearer, and at equal distance as `tie` says. -/
def pick? (span : Span) (tie : Tie) : Option Nat :=
  let lower := span.mid / span.grid
  match span.holds lower, span.holds (lower + 1) with
  | false, false => none
  | true, false => some lower
  | false, true => some (lower + 1)
  | true, true => some (roundDiv span.mid span.grid tie)

end Span

/-! ### The search -/

/-- The power of ten of the leading digit of `significand · 2 ^ exponent`: an
estimate from the binary logarithm, put right by one if need be. -/
def leadingPower (significand : Nat) (exponent : Int) : Int :=
  let guess := ((significand.log2 : Int) + exponent) * 30103 / 100000
  let reaches (tens : Int) : Bool :=
    let ratio := scaleBy significand exponent (-tens)
    ratio.den ≤ ratio.num
  if reaches (guess + 1) then guess + 1
  else if reaches guess then guess
  else guess - 1

/-- Try the grids from `10 ^ tens` on, each ten times finer than the one before,
`finer` of them after the first. -/
def searchFrom (significand : Nat) (exponent : Int) (tie : Tie) : Nat → Int → Digits
  | 0, tens =>
    let span := Span.ofDouble significand exponent tens
    ⟨roundDiv span.mid span.grid tie, tens⟩
  | finer + 1, tens =>
    match (Span.ofDouble significand exponent tens).pick? tie with
    | some n => ⟨n, tens⟩
    | none => searchFrom significand exponent tie finer (tens - 1)

/-- The shortest decimal that reads back as `significand · 2 ^ exponent`, without
trailing zeros. Seventeen digits are always enough. -/
def shortest (significand : Nat) (exponent : Int) (tie : Tie) : Digits :=
  if significand = 0 then ⟨0, 0⟩
  else
    (searchFrom significand exponent tie 17 (leadingPower significand exponent)).normal

end ScriptLint.Decimal
