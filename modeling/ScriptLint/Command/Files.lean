/-!
Files that a command reads.

* `ReadError`: why a file gives no text.
* `FileTree`: files and directories below the working directory.
* `FileTree.read`: the bytes of the file that a path leads to.
* `isStandardInput`: the path that stands for the standard input.
-/

namespace ScriptLint

/-! ### Failures -/

/-- Why a file gives no text. -/
inductive ReadError where
  | missing
  | isDirectory
  /-- A name on the path is that of a file. -/
  | notDirectory
  | nameTooLong
  /-- The path holds a null character. -/
  | badPath
  /-- The bytes are no text in UTF-8. -/
  | notText
  /-- Any other failure, in the words of the system. -/
  | other (text : String)
deriving DecidableEq, Repr

/-- The failure in words, with its number if the system has one for it. -/
def ReadError.message : ReadError → String
  | missing => "No such file or directory (os error 2)"
  | isDirectory => "Is a directory (os error 21)"
  | notDirectory => "Not a directory (os error 20)"
  | nameTooLong => "File name too long (os error 36)"
  | badPath => "file name contained an unexpected NUL byte"
  | notText => "stream did not contain valid UTF-8"
  | other text => text

/-- The text that bytes stand for in UTF-8. -/
def decodeText (bytes : ByteArray) : Except ReadError String :=
  match String.fromUTF8? bytes with
  | some text => .ok text
  | none => .error .notText

/-! ### Paths -/

/-- The names on a path; a name may be empty or a dot. -/
def pathNames (path : String) : List String :=
  path.splitOn "/"

/-- The name leads nowhere else. -/
def isIdle (name : String) : Bool :=
  name == "" || name == "."

/-- The path stands for the standard input: a minus sign, and perhaps slashes and
dots behind it. -/
def isStandardInput (path : String) : Bool :=
  match pathNames path with
  | first :: rest => first == "-" && rest.all isIdle
  | [] => false

/-! ### File trees -/

/-- A file with its bytes, or a directory. -/
inductive Node where
  | file (bytes : ByteArray)
  | directory

/-- The files and directories below the working directory, each with the names that
lead to it. The directories on the way to an entry need no entry of their own. -/
structure FileTree where
  entries : List (List String × Node)

namespace FileTree

/-- A tree of paths and what is there. -/
def ofList (paths : List (String × Node)) : FileTree :=
  ⟨paths.map fun (path, node) => ((pathNames path).filter (!isIdle ·), node)⟩

/-- What the names lead to. -/
def find? (tree : FileTree) (names : List String) : Option Node :=
  match tree.entries.lookup names with
  | some node => some node
  | none =>
    if tree.entries.any fun entry => names.isPrefixOf entry.1 then some .directory
    else none

/-- The greatest number of bytes of a name, and of a path. -/
def longestName : Nat := 255

/-- The greatest number of bytes of a path. -/
def longestPath : Nat := 4095

/-- Follow names from a directory of the tree, given by the names that lead to it, or
from a directory outside. Outside of the tree nothing is known but directories, and
nothing leads back. -/
def follow (tree : FileTree) : Option (List String) → List String → Except ReadError Node
  | _, [] => .ok .directory
  | place?, name :: rest =>
    if isIdle name then
      follow tree place? rest
    else if longestName < name.utf8ByteSize then
      .error .nameTooLong
    else
      match place? with
      | none => if name == ".." then follow tree none rest else .error .missing
      | some place =>
        if name == ".." then
          follow tree (if place.isEmpty then none else some place.dropLast) rest
        else
          match tree.find? (place ++ [name]) with
          | none => .error .missing
          | some .directory => follow tree (some (place ++ [name])) rest
          | some (.file bytes) =>
            if rest.isEmpty then .ok (.file bytes) else .error .notDirectory

/-- The bytes of the file that a path leads to. -/
def read (tree : FileTree) (path : String) : Except ReadError ByteArray :=
  if path.toList.contains '\x00' then .error .badPath
  else if path.isEmpty then .error .missing
  else if longestPath < path.utf8ByteSize then .error .nameTooLong
  else
    let start := if path.startsWith "/" then none else some []
    match tree.follow start (pathNames path) with
    | .ok (.file bytes) => .ok bytes
    | .ok .directory => .error .isDirectory
    | .error e => .error e

end FileTree

end ScriptLint
