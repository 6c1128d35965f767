import ScriptLint.Source.Sifting
import ScriptLint.Text.Blank
import ScriptLint.Text.Lines

/-!
The lines of a script that hold code.

* `SourceLine`: the trimmed code of a physical line with its number and indent.
* `SourceLine.ofShown?`: the source line of a sifted physical line, if code is
  left in it.
* `SourceLine.scan`: all source lines of a text, in order.
-/

namespace ScriptLint

/-- A physical line that holds code. -/
structure SourceLine where
  /-- The number of the physical line, counted from one. -/
  number : Nat
  /-- The code without the blanks around it, comments blanked out. -/
  text : List Char
  /-- How many characters were cut off before the code. -/
  indent : Nat
deriving DecidableEq, Repr

namespace SourceLine

/-- The column in the physical line of the character at `index` of the code. -/
def column (line : SourceLine) (index : Nat) : Nat :=
  line.indent + index + 1

/-- The source line of a sifted physical line; none if only blanks are left. -/
def ofShown? (number : Nat) (shown : List Char) : Option SourceLine :=
  if (Text.trim shown).isEmpty then none
  else some ⟨number, Text.trim shown, Text.leadingBlanks shown⟩

/-- One physical line that starts inside a block comment or outside. The answer
has the source line, if there is one, and tells whether a block comment is open
at the end. Outside a block comment, a line that begins with a comment marker is
dropped with all that follows on it. -/
def ofPhysical (markers : Markers) (number : Nat) (inComment : Bool)
    (physical : List Char) : Option SourceLine × Bool :=
  let start := Text.trim physical
  let sifted := sift markers inComment physical
  if inComment then
    (ofShown? number sifted.shown, sifted.opened)
  else if start.isEmpty || Markers.standsAt markers.line start then
    (none, false)
  else if Markers.standsAt markers.blockOpen start then
    (none, sifted.opened)
  else
    (ofShown? number sifted.shown, sifted.opened)

/-- The source lines among physical lines of which the first has this number. -/
def scanFrom (markers : Markers) :
    Nat → Bool → List (List Char) → List SourceLine
  | _, _, [] => []
  | number, inComment, physical :: later =>
    let (line?, opened) := ofPhysical markers number inComment physical
    line?.toList ++ scanFrom markers (number + 1) opened later

/-- The source lines of a script, in order. -/
def scan (markers : Markers) (source : List Char) : List SourceLine :=
  scanFrom markers 1 false (Text.physicalLines (Text.unifyEndings source))

end SourceLine

end ScriptLint
