/-!
Names that differ only in the case of the letters A to Z.

* `fold`: every letter A to Z made small, every other character kept.
* `sameName`: equality of the folded texts.
-/

namespace ScriptLint.Text

/-- The text with the letters A to Z made small; other letters stay. -/
def fold (text : List Char) : List Char :=
  text.map Char.toLower

/-- Two texts are the same name when they differ at most in the case of the
letters A to Z. -/
def sameName (a b : List Char) : Bool :=
  fold a == fold b

end ScriptLint.Text
