import ScriptLint.Field
import ScriptLint.Json.Value

/-!
Taking JSON values apart.

* `Json.toBool?`, `Json.toString?`, `Json.toWord?`, `Json.toFloat?`, `Json.toItems?`:
  values of one kind.
* `Json.toList?`: an array of values of one kind.
* `Json.fields?`: a record, written as an object whose members may come in any
  order or as an array of the fields in their order.
* `Json.tag?`: one of several names.
-/

namespace ScriptLint.Json

/-- A truth value. -/
def toBool? : Json → Option Bool
  | bool value => some value
  | _ => none

/-- A string. -/
def toString? : Json → Option String
  | string value => some value
  | _ => none

/-- A natural number that fits into 64 bits, written as a whole number without a sign. -/
def toWord? : Json → Option Nat
  | number value => value.toWord?
  | _ => none

/-- The double for a number; none if the number is too great for one. -/
def toFloat? : Json → Option Float
  | number value => value.toFloat?
  | _ => none

/-- The items of an array. -/
def toItems? : Json → Option (List Json)
  | array items => some items
  | _ => none

/-- The items of an array, each taken as `item?` says. -/
def toList? {α : Type} (item? : Json → Option α) (value : Json) : Option (List α) :=
  value.toItems?.bind fun items => items.mapM item?

/-- The values that the members of one name have. -/
def valuesOf (members : List (String × Json)) (name : String) : List Json :=
  (members.filter (·.1 == name)).map (·.2)

/-- The fields of a record by their names. A record is an object, in which no field
occurs twice and other members do not matter, or an array of at most as many items
as there are fields. A field may be missing. -/
def fields? (names : List String) : Json → Option (String → Option Json)
  | object members =>
    if names.all fun name => (valuesOf members name).length ≤ 1 then
      some fun name => (valuesOf members name).head?
    else
      none
  | array items =>
    if items.length ≤ names.length then
      some fun name => (names.zip items).lookup name
    else
      none
  | _ => none

/-- A name: a string, or an object whose only member has the name and no value. -/
def tag? : Json → Option String
  | string name => some name
  | object [(name, null)] => some name
  | _ => none

end ScriptLint.Json
