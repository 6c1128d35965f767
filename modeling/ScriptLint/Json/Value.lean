import ScriptLint.Json.Number

/-!
JSON values.

* `Json`: a value as it is written. An object is a list of members in which a name
  may occur twice.
* `Json.ofFloat`: the shortest number for a double, `null` if there is none.
* `Json.ofNat`: a whole number.
* `Json.ofMembers`: an object whose names may lack a text.
-/

namespace ScriptLint

/-- A JSON value. -/
inductive Json where
  | null
  | bool (value : Bool)
  | number (value : Json.Number)
  | string (value : String)
  /-- A string that is no text, or an object that has such a string for a name. The
  string is well written, but it has half of a surrogate pair without the other. -/
  | textless
  | array (items : List Json)
  | object (members : List (String × Json))

namespace Json

/-- A natural number. -/
def ofNat (n : Nat) : Json :=
  number (.ofNat n)

/-- The shortest number for a double. JSON has no numbers for the infinities and for
what is not a number. -/
def ofFloat (x : Float) : Json :=
  match Decimal.Exact.ofFloat x with
  | .finite negative significand exponent =>
    number (.ofDigits negative (Decimal.shortest significand exponent .toEven))
  | _ => null

/-- A list of strings. -/
def ofStrings (texts : List String) : Json :=
  array (texts.map string)

/-- A string, or `null` in place of none. -/
def ofString? : Option String → Json
  | some text => string text
  | none => null

/-- An object. A name may be a string that is no text. -/
def ofMembers (members : List (Option String × Json)) : Json :=
  match members.mapM fun (name?, value) => name?.map (·, value) with
  | some members => object members
  | none => textless

end Json

end ScriptLint
