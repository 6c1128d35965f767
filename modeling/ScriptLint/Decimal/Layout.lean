import ScriptLint.Decimal.Shortest

/-!
Decimals as text.

* `cut`: the digits of a number before and behind a decimal point.
* `positionalDigits`: all digits of a decimal before and behind its point.
* `fixed`: a double with a fixed number of places, rounded from its exact value.
* `Style`: the choices of a number format, `Style.write`: a double in it.
-/

namespace ScriptLint.Decimal

/-- The decimal digits of a number, at least `width` of them. -/
def padded (width n : Nat) : List Char :=
  let digits := Nat.toDigits 10 n
  List.replicate (width - digits.length) '0' ++ digits

/-- The digits of `n` before and behind a point that stands before the last `places`
of them. At least one digit stands before the point. -/
def cut (n places : Nat) : List Char × List Char :=
  let digits := padded (places + 1) n
  let whole := digits.length - places
  (digits.take whole, digits.drop whole)

/-- Digits with a point between them; no point if none stand behind it. -/
def pointed (parts : List Char × List Char) : List Char :=
  if parts.2.isEmpty then parts.1 else parts.1 ++ '.' :: parts.2

/-- The sign of a number. -/
def signText (negative : Bool) : List Char :=
  if negative then ['-'] else []

/-! ### A fixed number of places -/

/-- The double with `places` places after the point. Its exact value is rounded,
and a half goes to the even neighbour. -/
def fixed (places : Nat) (x : Float) : String :=
  match Exact.ofFloat x with
  | .nan => "NaN"
  | .infinite negative => String.ofList (signText negative ++ "inf".toList)
  | .finite negative significand exponent =>
    let ratio := scaleBy significand exponent places
    String.ofList
      (signText negative ++ pointed (cut (roundDiv ratio.num ratio.den .toEven) places))

/-! ### The shortest decimal -/

/-- The choices of a format for doubles. -/
structure Style where
  /-- Which of two equally near decimals is taken. -/
  tie : Tie
  /-- A whole number is written with `.0`. -/
  keepsPoint : Bool
  /-- What is written for a value that is not a number. -/
  nan : String
  /-- What is written for an infinity, behind its sign. -/
  infinity : String
  /-- An infinity has a sign. -/
  signsInfinity : Bool
deriving DecidableEq, Repr

/-- All digits of a decimal before and behind its point; a whole number with the
digit 0 behind it or none. -/
def positionalDigits (keepsPoint : Bool) (digits : Digits) : List Char × List Char :=
  if 0 ≤ digits.exponent then
    (Nat.toDigits 10 digits.value ++ List.replicate digits.exponent.toNat '0',
      if keepsPoint then ['0'] else [])
  else
    cut digits.value (-digits.exponent).toNat

namespace Style

/-- The double in this style. -/
def write (style : Style) (x : Float) : String :=
  match Exact.ofFloat x with
  | .nan => style.nan
  | .infinite negative =>
    String.ofList
      (signText (negative && style.signsInfinity) ++ style.infinity.toList)
  | .finite negative significand exponent =>
    String.ofList
      (signText negative ++
        pointed (positionalDigits style.keepsPoint
          (shortest significand exponent style.tie)))

end Style

end ScriptLint.Decimal
