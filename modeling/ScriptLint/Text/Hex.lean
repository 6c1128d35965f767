/-!
Hexadecimal digits.

* `hexQuad`: a number below `0x10000` in four digits.
* `hexValue?`: the value of a digit of either case.
* `numberOf`: the number that digit values of a base stand for.
-/

namespace ScriptLint.Text

/-- A number below `0x10000` in four digits, with small letters. -/
def hexQuad (n : Nat) : List Char :=
  [Nat.digitChar (n / 4096 % 16), Nat.digitChar (n / 256 % 16),
    Nat.digitChar (n / 16 % 16), Nat.digitChar (n % 16)]

/-- The value of a hexadecimal digit of either case. -/
def hexValue? (c : Char) : Option Nat :=
  if c.isDigit then some (c.toNat - '0'.toNat)
  else if 'a' ≤ c && c ≤ 'f' then some (c.toNat - 'a'.toNat + 10)
  else if 'A' ≤ c && c ≤ 'F' then some (c.toNat - 'A'.toNat + 10)
  else none

/-- The number that digit values of a base stand for, the highest first. -/
def numberOf (base : Nat) (values : List Nat) : Nat :=
  values.foldl (fun n digit => base * n + digit) 0

end ScriptLint.Text
