import ScriptLint.Toml.Scalars
import ScriptLint.Toml.Strings

/-!
Reading TOML documents.

* `Toml.readKey`: a dotted key.
* `Toml.readValue`: a value at the start of a text.
* `Toml.readLines`: the lines of a document, one after the other.
* `Toml.parse?`: the table that a document is; none if it breaks a rule.
-/

namespace ScriptLint.Toml

/-- The number of names in a key, and of values within values, that is refused. -/
def depthLimit : Nat := 80

/-! ### Blanks, comments and line endings -/

/-- The text behind a comment, which may hold no control characters. -/
def skipComment (text : List Char) : List Char :=
  match text with
  | '#' :: rest => rest.dropWhile isPlainChar
  | _ => text

/-- The text behind the end of a line: blanks, perhaps a comment, and a line ending
or the end of the document. -/
def afterLineEnd? (text : List Char) : Option (List Char) :=
  match skipComment (skipLineBlanks text) with
  | [] => some []
  | rest => afterNewLine? rest

/-- The text behind blanks, comments and line endings, as they may stand between
the items of an array. The bound is on the number of lines. -/
def skipLoose : Nat → List Char → List Char
  | 0, text => text
  | bound + 1, text =>
    let rest := skipComment (skipLineBlanks text)
    match afterNewLine? rest with
    | some rest => skipLoose bound rest
    | none => if rest = [] then [] else skipLineBlanks text

/-! ### Keys -/

/-- A character of a name that needs no quotes. -/
def isBareChar (c : Char) : Bool :=
  c.isAlphanum || c == '_' || c == '-'

/-- A name, bare or in quotes, and the text behind it. -/
def readName : List Char → Option (String × List Char)
  | '"' :: rest => name '"' rest
  | '\'' :: rest => name '\'' rest
  | text =>
    let bare := text.takeWhile isBareChar
    if bare.isEmpty then none else some (String.ofList bare, text.drop bare.length)
where
  /-- A name in quotes, which ends on its line. -/
  name (quote : Char) (text : List Char) : Option (String × List Char) := do
    let (characters, rest) ← readLineString quote (text.length + 1) text
    some (String.ofList characters, rest)

/-- The names of a dotted key, and the text behind it with its blanks. The bound is
on the number of names. -/
def readNames : Nat → List Char → Option (List String × List Char)
  | 0, _ => none
  | bound + 1, text => do
    let (name, rest) ← readName (skipLineBlanks text)
    match skipLineBlanks rest with
    | '.' :: rest => do
      let (names, rest) ← readNames bound rest
      some (name :: names, rest)
    | rest => some ([name], rest)

/-- A dotted key: the names before the last one, the last one, and the text behind
the key. -/
def readKey (text : List Char) : Option ((List String × String) × List Char) := do
  let (names, rest) ← readNames (depthLimit - 1) text
  let last ← names.getLast?
  some ((names.dropLast, last), rest)

/-! ### Values -/

mutual

/-- A value at the start of a text, and the text behind it. The first number bounds
the steps, the second the arrays and tables that are still allowed within each
other. -/
def readValue : Nat → Nat → List Char → Option (Toml × List Char)
  | 0, _, _ => none
  | bound + 1, depth, text =>
    match text with
    | '"' :: rest => (readQuoted '"' rest).map fun (s, rest) => (string s, rest)
    | '\'' :: rest => (readQuoted '\'' rest).map fun (s, rest) => (string s, rest)
    | '[' :: rest =>
      match depth with
      | 0 => none
      | depth + 1 => do
        let (items, rest) ← readItems bound depth (skipLoose rest.length rest)
        some (array items, rest)
    | '\x7b' :: rest =>
      match depth with
      | 0 => none
      | depth + 1 =>
        match skipLineBlanks rest with
        | '\x7d' :: rest => some (table .inline [], rest)
        | rest => do
          let (members, rest) ← readPairs bound depth [] rest
          some (table .inline members, rest)
    | text => readScalar text

/-- The items of an array up to its closing bracket. A comma may stand behind the
last one. -/
def readItems : Nat → Nat → List Char → Option (List Toml × List Char)
  | 0, _, _ => none
  | bound + 1, depth, text =>
    match text with
    | ']' :: rest => some ([], rest)
    | text => do
      let (item, rest) ← readValue bound depth text
      match skipLoose rest.length rest with
      | ',' :: rest =>
        let (items, rest) ← readItems bound depth (skipLoose rest.length rest)
        some (item :: items, rest)
      | ']' :: rest => some ([item], rest)
      | _ => none

/-- The pairs of an inline table up to its closing brace, at least one, added to the
members so far. -/
def readPairs : Nat → Nat → Members → List Char → Option (Members × List Char)
  | 0, _, _, _ => none
  | bound + 1, depth, members, text => do
    let ((path, name), rest) ← readKey text
    match rest with
    | '=' :: rest =>
      let (value, rest) ← readValue bound depth (skipLineBlanks rest)
      let members ← assign path name value members
      match skipLineBlanks rest with
      | ',' :: rest => readPairs bound depth members rest
      | '\x7d' :: rest => some (members, rest)
      | _ => none
    | _ => none

end

/-! ### Documents -/

/-- What has been read of a document: its table, and the names of the header under
which the next lines stand. -/
structure Draft where
  root : Members
  current : List String

namespace Draft

/-- Nothing has been read. -/
def empty : Draft := ⟨[], []⟩

/-- A header, given the text behind its opening bracket. -/
def header (draft : Draft) (text : List Char) : Option (Draft × List Char) := do
  let ((path, name), rest) ← readKey text
  match rest with
  | ']' :: rest =>
    let rest ← afterLineEnd? rest
    let root ← openTable path name draft.root
    some (⟨root, path ++ [name]⟩, rest)
  | _ => none

/-- A header of an array of tables, given the text behind its opening brackets. -/
def arrayHeader (draft : Draft) (text : List Char) : Option (Draft × List Char) := do
  let ((path, name), rest) ← readKey text
  match rest with
  | ']' :: ']' :: rest =>
    let rest ← afterLineEnd? rest
    let root ← appendTable path name draft.root
    some (⟨root, path ++ [name]⟩, rest)
  | _ => none

/-- A key with its value, which goes into the table of the current header. -/
def pair (draft : Draft) (text : List Char) : Option (Draft × List Char) := do
  let ((path, name), rest) ← readKey text
  match rest with
  | '=' :: rest =>
    let (value, rest) ←
      readValue (rest.length + 1) (depthLimit - 1) (skipLineBlanks rest)
    let rest ← afterLineEnd? rest
    let root ← inside (assign path name value) draft.current draft.root
    some ({ draft with root }, rest)
  | _ => none

end Draft

/-- The lines of a document. The bound is on their number. -/
def readLines : Nat → Draft → List Char → Option Members
  | 0, _, _ => none
  | bound + 1, draft, text =>
    match skipLineBlanks text with
    | [] => some draft.root
    | '[' :: '[' :: rest => do
      let (draft, rest) ← draft.arrayHeader rest
      readLines bound draft rest
    | '[' :: rest => do
      let (draft, rest) ← draft.header rest
      readLines bound draft rest
    | c :: rest =>
      if c = '#' || c = '\n' || c = '\r' then do
        let rest ← afterLineEnd? (c :: rest)
        readLines bound draft rest
      else do
        let (draft, rest) ← draft.pair (c :: rest)
        readLines bound draft rest

/-- The text without a byte order mark at its start. -/
def dropMark : List Char → List Char
  | '\uFEFF' :: rest => rest
  | text => text

/-- The table that a document is. -/
def parse? (document : String) : Option Toml := do
  let text := dropMark document.toList
  let members ← readLines (text.length + 1) Draft.empty text
  some (table .header members)

end ScriptLint.Toml
