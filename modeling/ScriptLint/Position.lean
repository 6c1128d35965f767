/-!
Places in a script.

* `Position`: a line and a column, both counted from one.
* `Position.le`: the reading order, first by line, then by column.
* `Position.sort`: a list of places in reading order.
-/

namespace ScriptLint

/-- A place in a script: a line and a column in it, both counted from one. -/
structure Position where
  line : Nat
  column : Nat
deriving DecidableEq, Repr

namespace Position

/-- The place as it is printed: the line, a colon, the column. -/
def display (place : Position) : String :=
  toString place.line ++ ":" ++ toString place.column

/-- Reading order: the earlier line first, on one line the smaller column. -/
def le (a b : Position) : Bool :=
  a.line < b.line || (a.line == b.line && a.column ≤ b.column)

/-- The places in reading order. -/
def sort (places : List Position) : List Position :=
  places.mergeSort le

end Position

end ScriptLint
