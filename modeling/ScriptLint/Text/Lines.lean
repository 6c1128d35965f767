/-!
Physical lines. A line ends at LF, at CR LF or at a lone CR.

* `unifyEndings`: every line ending written as LF.
* `physicalLines`: the lines between the LF characters; the empty text has one
  empty line.
-/

namespace ScriptLint.Text

/-! ### One spelling of the line ending -/

/-- The text with CR LF and lone CR both written as LF. -/
def unifyEndings : List Char → List Char
  | [] => []
  | '\r' :: '\n' :: rest => '\n' :: unifyEndings rest
  | '\r' :: rest => '\n' :: unifyEndings rest
  | c :: rest => c :: unifyEndings rest

/-! ### Cutting into lines -/

/-- Put one more character in front of a list of lines. -/
def prependToLines (c : Char) (lines : List (List Char)) : List (List Char) :=
  if c = '\n' then
    [] :: lines
  else
    match lines with
    | [] => [[c]]
    | line :: later => (c :: line) :: later

/-- The stretches of text between LF characters, in order. -/
def physicalLines (text : List Char) : List (List Char) :=
  text.foldr prependToLines [[]]

/-- The empty text has one empty line. -/
@[simp] theorem physicalLines_nil : physicalLines [] = [[]] := rfl

/-- A line feed starts a new line. -/
@[simp] theorem physicalLines_lineFeed (rest : List Char) :
    physicalLines ('\n' :: rest) = [] :: physicalLines rest := by
  simp [physicalLines, prependToLines]

end ScriptLint.Text
