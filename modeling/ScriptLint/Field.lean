/-!
Fields of a record that may be missing.

* `Field.required`: the field must be there.
* `Field.optional`: another value stands in for a missing field.
-/

namespace ScriptLint.Field

/-- The value of a field, which must be there. -/
def required {V α : Type} (read? : V → Option α) (field? : Option V) : Option α :=
  field?.bind read?

/-- The value of a field; the given value if it is missing. -/
def optional {V α : Type} (read? : V → Option α) (otherwise : α)
    (field? : Option V) : Option α :=
  match field? with
  | some value => read? value
  | none => some otherwise

end ScriptLint.Field
