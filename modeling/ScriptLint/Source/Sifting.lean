/-!
Comments and string literals of one physical line, read by a character
automaton.

* `Markers`: the three comment markers, any texts.
* `Markers.standsAt`: a marker stands at the start of a text; the empty marker
  stands nowhere.
* `Zone`: what the automaton is in, `Zone.step`: one character of it.
* `sift`: the line with comment text replaced by spaces and cut at a line
  comment, and whether a block comment is open at its end.
* `length_sift_le`: sifting keeps the columns, it only cuts at the end.
-/

namespace ScriptLint

/-- The texts that open and close comments. -/
structure Markers where
  /-- Starts a comment that ends with its line. -/
  line : List Char
  /-- Starts a comment that may run over several lines. -/
  blockOpen : List Char
  /-- Ends such a comment. -/
  blockClose : List Char
deriving DecidableEq, Repr

/-- A marker stands at the start of a text. The empty marker stands nowhere. -/
def Markers.standsAt (marker text : List Char) : Bool :=
  !marker.isEmpty && marker.isPrefixOf text

/-! ### The automaton -/

/-- The state between two characters of a line. -/
inductive Zone where
  /-- Outside literals and comments. -/
  | code
  /-- Inside a literal opened by this quote. -/
  | literal (quote : Char)
  /-- Inside a literal, right after a backslash. -/
  | escape (quote : Char)
  /-- Inside a block comment. -/
  | comment
  /-- Inside a block marker of which `more + 1` characters are still to come;
  it opens a comment or closes one. -/
  | marker (opening : Bool) (more : Nat)
deriving DecidableEq, Repr

namespace Zone

/-- The zone after the first character of a block marker that has `more` further
characters. -/
def afterMarker (opening : Bool) : Nat → Zone
  | 0 => if opening then comment else code
  | more + 1 => marker opening more

/-- A single or a double quote opens a literal. -/
def isQuote (c : Char) : Bool :=
  c == '"' || c == '\''

/-- One character: what is shown in its place, and the zone after it. There is
none at a line comment, where the line is cut. In code the line comment is tried
first, then the block comment, then the quotes. -/
def step (markers : Markers) (zone : Zone) (c : Char) (rest : List Char) :
    Option (Char × Zone) :=
  match zone with
  | code =>
    if Markers.standsAt markers.line (c :: rest) then
      none
    else if Markers.standsAt markers.blockOpen (c :: rest) then
      some (' ', afterMarker true (markers.blockOpen.length - 1))
    else if isQuote c then
      some (c, literal c)
    else
      some (c, code)
  | literal quote =>
    if c = '\\' then some (c, escape quote)
    else if c = quote then some (c, code)
    else some (c, literal quote)
  | escape quote => some (c, literal quote)
  | comment =>
    if Markers.standsAt markers.blockClose (c :: rest) then
      some (' ', afterMarker false (markers.blockClose.length - 1))
    else
      some (' ', comment)
  | marker opening more => some (' ', afterMarker opening more)

/-- A block comment goes on behind the end of the line. -/
def staysOpen : Zone → Bool
  | comment => true
  | _ => false

end Zone

/-! ### Sifting a line -/

/-- A line whose comments are blanked out. -/
structure Sifted where
  /-- The line, each character of a comment a space, cut at a line comment. -/
  shown : List Char
  /-- A block comment is open at the end of the line. -/
  opened : Bool
deriving DecidableEq, Repr

/-- Run the automaton over the rest of a line. -/
def siftFrom (markers : Markers) : Zone → List Char → Sifted
  | zone, [] => ⟨[], zone.staysOpen⟩
  | zone, c :: rest =>
    match zone.step markers c rest with
    | none => ⟨[], false⟩
    | some (shown, next) =>
      let later := siftFrom markers next rest
      ⟨shown :: later.shown, later.opened⟩

/-- Sift a physical line that starts inside a block comment or outside. -/
def sift (markers : Markers) (inComment : Bool) (line : List Char) : Sifted :=
  siftFrom markers (if inComment then .comment else .code) line

/-- What is shown is never longer than the line: columns are kept. -/
theorem length_siftFrom_le (markers : Markers) (zone : Zone) (line : List Char) :
    (siftFrom markers zone line).shown.length ≤ line.length := by
  induction line generalizing zone with
  | nil => simp [siftFrom]
  | cons c rest ih =>
    rw [siftFrom]
    cases zone.step markers c rest with
    | none => simp
    | some next => simpa using ih next.2

/-- Sifting keeps the columns, it only cuts at the end. -/
theorem length_sift_le (markers : Markers) (inComment : Bool) (line : List Char) :
    (sift markers inComment line).shown.length ≤ line.length :=
  length_siftFrom_le markers _ line

end ScriptLint
