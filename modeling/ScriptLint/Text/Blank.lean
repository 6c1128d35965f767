/-!
Blank characters, and cutting them from the ends of a text.

* `isBlank`: the Unicode property White_Space, as a table of code-point ranges.
* `trimStart`, `trimEnd`, `trim`: the text without the blanks at its start, at
  its end, at both.
* `leadingBlanks`: how many blanks a text starts with; with what `trimStart`
  leaves they make up the whole text (`leadingBlanks_add_length`).
-/

namespace ScriptLint.Text

/-! ### The blank characters -/

/-- The code points with the property White_Space, as closed ranges in
increasing order. -/
def blankRanges : List (Nat × Nat) :=
  [(0x09, 0x0D), (0x20, 0x20), (0x85, 0x85), (0xA0, 0xA0), (0x1680, 0x1680),
    (0x2000, 0x200A), (0x2028, 0x2029), (0x202F, 0x202F), (0x205F, 0x205F),
    (0x3000, 0x3000)]

/-- A character is blank when one of the ranges holds its code point. -/
def isBlank (c : Char) : Bool :=
  blankRanges.any fun range => range.1 ≤ c.toNat && c.toNat ≤ range.2

/-- The space is blank. -/
theorem isBlank_space : isBlank ' ' = true := by decide

/-! ### Trimming -/

/-- The text from its first character that is not blank. -/
def trimStart (text : List Char) : List Char :=
  text.dropWhile isBlank

/-- The text up to its last character that is not blank. -/
def trimEnd (text : List Char) : List Char :=
  (text.reverse.dropWhile isBlank).reverse

/-- The text without the blanks at both ends. -/
def trim (text : List Char) : List Char :=
  trimEnd (trimStart text)

/-- The number of blanks at the start. -/
def leadingBlanks (text : List Char) : Nat :=
  (text.takeWhile isBlank).length

/-- The leading blanks and what follows them are the whole text. -/
theorem leadingBlanks_add_length (text : List Char) :
    leadingBlanks text + (trimStart text).length = text.length := by
  rw [leadingBlanks, trimStart, ← List.length_append,
    List.takeWhile_append_dropWhile]

/-- A text that starts with a character that is not blank keeps its start. -/
theorem trimStart_cons_of_not_blank {c : Char} (rest : List Char)
    (h : isBlank c = false) : trimStart (c :: rest) = c :: rest := by
  simp [trimStart, h]

end ScriptLint.Text
