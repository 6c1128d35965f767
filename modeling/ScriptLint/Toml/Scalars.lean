import ScriptLint.Decimal.Reading
import ScriptLint.Text.Hex
import ScriptLint.Toml.Value

/-!
TOML numbers, dates and truth values.

* `Toml.ungroup?`: digits with single underscores between them.
* `Toml.integer?`, `Toml.float?`: numbers.
* `Toml.isDate`, `Toml.isTime`: dates and times of day that exist.
* `Toml.scalar?`: the value of a word.
-/

namespace ScriptLint.Toml

/-! ### Digits -/

/-- The digits of a number without the underscores between them. There is at least
one digit, and every underscore stands between two. -/
def ungroup? (isDigit : Char → Bool) : List Char → Option (List Char)
  | [] => none
  | [c] => if isDigit c then some [c] else none
  | c :: '_' :: rest =>
    if isDigit c then (ungroup? isDigit rest).map (c :: ·) else none
  | c :: rest =>
    if isDigit c then (ungroup? isDigit rest).map (c :: ·) else none

/-- A decimal number of digits, without a needless zero at its start. -/
def decimalDigits? (text : List Char) : Option (List Char) := do
  let digits ← ungroup? Char.isDigit text
  if digits.head? = some '0' && digits.length ≠ 1 then none else some digits

/-- A sign in front of a number: whether it is a minus, and the text behind it. -/
def splitSign : List Char → Bool × List Char
  | '+' :: rest => (false, rest)
  | '-' :: rest => (true, rest)
  | text => (false, text)

/-! ### Integers -/

/-- The number that digits of a base stand for, given in hexadecimal values. -/
def natOfBase? (base : Nat) (text : List Char) : Option Nat := do
  let isDigit (c : Char) : Bool := (Text.hexValue? c).any (· < base)
  let digits ← ungroup? isDigit text
  let values ← digits.mapM Text.hexValue?
  some (Text.numberOf base values)

/-- An integer that fits into 64 bits with a sign. -/
def inRange? (n : Int) : Option Int :=
  if -0x8000000000000000 ≤ n && n < 0x8000000000000000 then some n else none

/-- An integer: decimal with an optional sign, or in base 16, 8 or 2 without. -/
def integer? : List Char → Option Int
  | '0' :: 'x' :: rest => (natOfBase? 16 rest).bind (inRange? ·)
  | '0' :: 'o' :: rest => (natOfBase? 8 rest).bind (inRange? ·)
  | '0' :: 'b' :: rest => (natOfBase? 2 rest).bind (inRange? ·)
  | text => do
    let (negative, body) := splitSign text
    let digits ← decimalDigits? body
    let size : Int := Decimal.natOfDigits digits
    inRange? (if negative then -size else size)

/-! ### Floats -/

/-- What stands before the first character of a kind, and what stands behind it. -/
def splitAtFirst (isMark : Char → Bool) (text : List Char) :
    List Char × Option (List Char) :=
  let before := text.takeWhile fun c => !isMark c
  match text.drop before.length with
  | [] => (before, none)
  | _ :: behind => (before, some behind)

/-- The exponent behind the letter `e`. -/
def exponent? (text : List Char) : Option Int := do
  let (negative, body) := splitSign text
  let digits ← ungroup? Char.isDigit body
  let size : Int := Decimal.natOfDigits digits
  some (if negative then -size else size)

/-- A decimal with a fraction, an exponent or both, without its sign. -/
def unsignedDecimal? (text : List Char) : Option Decimal.Digits := do
  let (mantissa, exponent?) := splitAtFirst (fun c => c == 'e' || c == 'E') text
  let (whole, fraction?) := splitAtFirst (· == '.') mantissa
  if exponent?.isNone && fraction?.isNone then none
  let whole ← decimalDigits? whole
  let fraction ← match fraction? with
    | some digits => ungroup? Char.isDigit digits
    | none => some []
  let power ← match exponent? with
    | some text => Toml.exponent? text
    | none => some 0
  some ⟨Decimal.natOfDigits (whole ++ fraction), power - (fraction.length : Int)⟩

/-- A float. The words for infinity and for what is not a number may have a sign. A
decimal above all doubles is refused, one below all of them is minus infinity. -/
def float? (text : List Char) : Option Float :=
  let (negative, body) := splitSign text
  let signed (x : Float) : Float := if negative then -x else x
  if body = "inf".toList then some (signed (1.0 / 0.0))
  else if body = "nan".toList then some (signed (0.0 / 0.0))
  else do
    let digits ← unsignedDecimal? body
    let x := digits.toFloat negative
    if x.isInf && !negative then none else some x

/-! ### Dates and times -/

/-- The number of exactly `count` digits. -/
def fixedDigits? (count : Nat) (text : List Char) : Option Nat :=
  if text.length = count && text.all Char.isDigit then some (Decimal.natOfDigits text)
  else none

/-- The number of days in a month. -/
def daysIn (year month : Nat) : Nat :=
  if month = 2 then
    if year % 4 = 0 && (year % 100 ≠ 0 || year % 400 = 0) then 29 else 28
  else if month = 4 || month = 6 || month = 9 || month = 11 then 30
  else 31

/-- A date: year, month and day, with minus signs between them. -/
def isDate (text : List Char) : Bool :=
  (do
    let year ← fixedDigits? 4 (text.take 4)
    let month ← fixedDigits? 2 ((text.drop 5).take 2)
    let day ← fixedDigits? 2 (text.drop 8)
    guard (text[4]? = some '-' && text[7]? = some '-')
    guard (1 ≤ month && month ≤ 12 && 1 ≤ day && day ≤ daysIn year month)).isSome

/-- A time of day on the clock: hours and minutes, with a colon between them. -/
def isClock (text : List Char) : Bool :=
  (do
    let hour ← fixedDigits? 2 (text.take 2)
    let minute ← fixedDigits? 2 (text.drop 3)
    guard (text[2]? = some ':' && hour < 24 && minute < 60)).isSome

/-- A time of day: hours, minutes, seconds, and perhaps a fraction. A minute may have
a leap second. -/
def isTime (text : List Char) : Bool :=
  let (clock, fraction?) := splitAtFirst (· == '.') text
  isClock (clock.take 5) && clock[5]? = some ':' &&
    (fixedDigits? 2 (clock.drop 6)).any (· ≤ 60) &&
    match fraction? with
    | none => true
    | some digits => !digits.isEmpty && digits.all Char.isDigit

/-- A time of day that may be followed by its distance to universal time. -/
def isZonedTime (text : List Char) : Bool :=
  isTime text ||
    (match text.getLast? with
      | some c => (c == 'Z' || c == 'z') && isTime text.dropLast
      | none => false) ||
    (let time := text.take (text.length - 6)
     let zone := text.drop (text.length - 6)
     isTime time &&
      match zone with
      | sign :: clock => (sign == '+' || sign == '-') && isClock clock
      | [] => false)

/-- A date, a time, or a date and a time with a letter `T` between them. -/
def isMoment (text : List Char) : Bool :=
  isDate text || isTime text ||
    (isDate (text.take 10) && (text[10]? = some 'T' || text[10]? = some 't') &&
      isZonedTime (text.drop 11))

/-! ### Words -/

/-- A character that ends a word: a blank, a line ending, a comma, a closing bracket
or brace, or the begin of a comment. -/
def endsWord (c : Char) : Bool :=
  [' ', '\t', '\n', '\r', ',', ']', '\x7d', '#'].contains c

/-- The value of a word. -/
def scalar? (word : List Char) : Option Toml :=
  if word = "true".toList then some (bool true)
  else if word = "false".toList then some (bool false)
  else if isMoment word then some date
  else
    match integer? word with
    | some n => some (integer n)
    | none => (float? word).map float

/-- A value that is a word, and the text behind it. A date and a time may have a
space between them. -/
def readScalar (text : List Char) : Option (Toml × List Char) := do
  let word := text.takeWhile fun c => !endsWord c
  let rest := text.drop word.length
  match isDate word, rest with
  | true, ' ' :: behind =>
    let next := behind.takeWhile fun c => !endsWord c
    if isZonedTime next then some (date, behind.drop next.length) else some (date, rest)
  | _, _ =>
    let value ← scalar? word
    some (value, rest)

end ScriptLint.Toml
