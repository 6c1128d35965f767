/-!
TOML values, and tables that grow while a document is read.

* `Toml`: a value; a table remembers how it came to be (`TableOrigin`).
* `Toml.update`: change the member of a name.
* `Toml.assign`: give a dotted key a value.
* `Toml.openTable`, `Toml.appendTable`: the two kinds of header.
* `Toml.inside`: change the table that a header names.
-/

namespace ScriptLint

/-- How a table came to be. This decides who may still add to it. -/
inductive TableOrigin where
  /-- Written as a value between braces; it is complete. -/
  | inline
  /-- Named by a header of its own. -/
  | header
  /-- Named only within longer headers so far. -/
  | implied
  /-- Named by dotted keys. -/
  | dotted
deriving DecidableEq, Repr

/-- A TOML value. -/
inductive Toml where
  | string (value : String)
  | integer (value : Int)
  | float (value : Float)
  | bool (value : Bool)
  /-- A date, a time, or both; which one does not matter here. -/
  | date
  | array (items : List Toml)
  /-- An array of tables that is written with headers, the latest table last. -/
  | tables (items : List Toml)
  | table (origin : TableOrigin) (members : List (String × Toml))

namespace Toml

/-- The members of a table in the order in which they were first named. No name
occurs twice. -/
abbrev Members := List (String × Toml)

/-- Change the member of a name; `change` is told its value, if there is one, and
may refuse. A new member comes last. -/
def update (name : String) (change : Option Toml → Option Toml) :
    Members → Option Members
  | [] => do
    let value ← change none
    some [(name, value)]
  | (other, value) :: rest =>
    if other = name then do
      let value ← change (some value)
      some ((other, value) :: rest)
    else do
      let rest ← update name change rest
      some ((other, value) :: rest)

/-- Change the last table of an array of tables. -/
def updateLast (change : Members → Option Members) : List Toml → Option (List Toml)
  | [] => none
  | [table origin members] => do
    let members ← change members
    some [table origin members]
  | first :: rest => do
    let rest ← updateLast change rest
    some (first :: rest)

/-! ### Dotted keys -/

/-- Give the last name of a dotted key a value in the table that the names before
it lead to. Tables on the way are made if they are missing. A table that a header
or braces have written cannot be reached, and the value itself goes only into a
table where `here` allows it: the one that the key starts in, or one that dotted
keys have made. -/
def assignFrom (name : String) (value : Toml) :
    Bool → List String → Members → Option Members
  | allowed, [], members =>
    if allowed then
      update name (fun old? => if old?.isSome then none else some value) members
    else
      none
  | _, first :: path, members =>
    update first
      (fun old? =>
        match old? with
        | none => (assignFrom name value true path []).map (table .dotted)
        | some (table .dotted inner) =>
          (assignFrom name value true path inner).map (table .dotted)
        | some (table .implied inner) =>
          (assignFrom name value false path inner).map (table .implied)
        | some (tables items) =>
          (updateLast (assignFrom name value false path) items).map tables
        | some _ => none)
      members

/-- Give a dotted key, of which the last name is `name`, a value. -/
def assign (path : List String) (name : String) (value : Toml) (members : Members) :
    Option Members :=
  assignFrom name value true path members

/-! ### Headers -/

/-- Change the table that the names of a header lead to. Tables on the way are
made if they are missing; of an array of tables the last one is meant. -/
def inside (change : Members → Option Members) : List String → Members → Option Members
  | [], members => change members
  | first :: path, members =>
    update first
      (fun old? =>
        match old? with
        | none => (inside change path []).map (table .implied)
        | some (table .inline _) => none
        | some (table origin inner) => (inside change path inner).map (table origin)
        | some (tables items) => (updateLast (inside change path) items).map tables
        | some _ => none)
      members

/-- Begin the table of a header. It may have been named within longer headers
before, but in no other way. -/
def openTable (path : List String) (name : String) (members : Members) :
    Option Members :=
  inside
    (update name fun old? =>
      match old? with
      | none => some (table .header [])
      | some (table .implied inner) => some (table .header inner)
      | some _ => none)
    path members

/-- Begin one more table in the array of tables of a header. -/
def appendTable (path : List String) (name : String) (members : Members) :
    Option Members :=
  inside
    (update name fun old? =>
      match old? with
      | none => some (tables [table .header []])
      | some (tables items) => some (tables (items ++ [table .header []]))
      | some _ => none)
    path members

end Toml

end ScriptLint
