import Mathlib
import ScriptLint.Proofs.Labels.Relabelled

/-!
What an analysis sees of literals.

* `Token.masked`: the token without the characters of a literal.
* `Relabelling.relabels_masked`: the mask changes no label, so an analysis takes masked tokens
  as the tokens themselves.
* `verdictOn_masked`: the verdict does not depend on what literals hold.
-/

namespace ScriptLint

/-- The token without the characters of a literal. -/
def Token.masked (token : Token) : Token :=
  match token.kind with
  | .literal _ => { token with lexeme := [] }
  | _ => token

/-- The tokens of a line without the characters of literals. -/
def TokenLine.masked (line : TokenLine) : TokenLine :=
  ⟨line.number, line.tokens.map Token.masked⟩

/-! ### Tokens -/

namespace Token

@[simp] lemma masked_kind (token : Token) : token.masked.kind = token.kind := by
  rw [masked]
  split <;> rfl

@[simp] lemma masked_column (token : Token) : token.masked.column = token.column := by
  rw [masked]
  split <;> rfl

/-- Other tokens keep their characters. -/
lemma masked_of_not_literal {token : Token} (h : ∀ closed, token.kind ≠ .literal closed) :
    token.masked = token := by
  rw [masked]
  split
  case h_1 closed hkind => exact absurd hkind (h closed)
  case h_2 => rfl

end Token

/-- The mask changes no label: what it takes away is neither a name nor a numeral. -/
lemma Relabelling.relabels_masked (number : Nat) : same.Relabels number Token.masked where
  kind := Token.masked_kind
  column := Token.masked_column
  name token hkind := by
    rw [Token.masked_of_not_literal fun closed hliteral => by simp [hkind] at hliteral]
    rfl
  numeral token hkind := by
    rw [Token.masked_of_not_literal fun closed hliteral => by simp [hkind] at hliteral]

/-! ### Scripts -/

/-- **The verdict** on a script does not depend on what its literals hold. -/
theorem verdictOn_masked (settings : Settings) (lines : List TokenLine) :
    verdictOn settings (lines.map TokenLine.masked) = verdictOn settings lines := by
  have hsame := verdictOn_relabelled settings
    (Relabelling.faithful_of_name_eq rfl settings.catalogue) Relabelling.relabels_masked lines
  exact hsame.eq_of_same

end ScriptLint
