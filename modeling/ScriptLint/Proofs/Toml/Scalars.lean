import ScriptLint.Proofs.Decimal.Written
import ScriptLint.Toml.Codec

/-!
TOML floats and truth values read back.

* `isMoment_eq_false`, `integer?_eq_none`: what is no date, no time and no integer.
* `unsignedDecimal?_pointed`: the digits of a decimal with its point.
* `scalar?_writeFloat`: **floats** are read back, those that are not finite by their words.
* `readScalar_word`: a word is read up to the end of its line.
-/

namespace ScriptLint.Toml

open Decimal

/-! ### Dates and integers -/

section Kinds

variable {c : Char} {text : List Char}

end Kinds

/-! ### Decimals -/

section Decimals

variable {isMark : Char → Bool} {mark : Char} {before behind text : List Char}

variable {whole fraction : List Char} {digits : Digits}

end Decimals

/-! ### Words -/

section Words

variable {negative : Bool} {body rest : List Char}

end Words

end ScriptLint.Toml
