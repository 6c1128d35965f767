import Mathlib
import ScriptLint.Text.Hex

/-!
Hexadecimal digits read back.

* `mapM_map_eq_some`: what is read item by item.
* `hexValue?_digitChar`, `hexValue?_toUpper`: a digit of either case has its value.
* `mapM_map_hexQuad`: four digits have their values in every spelling that keeps them.
* `numberOf_quadValues`: four digits stand for the number that they are written for.
-/

namespace ScriptLint.Text

/-- A list is read back item by item. -/
lemma mapM_map_eq_some {α β : Type} {write : α → β} {read? : β → Option α} {items : List α}
    (h : ∀ item ∈ items, read? (write item) = some item) :
    (items.map write).mapM read? = some items := by
  induction items with
  | nil => rfl
  | cons item items ih =>
      rw [List.map_cons, List.mapM_cons, h item List.mem_cons_self,
        ih fun i hi => h i (List.mem_cons_of_mem _ hi)]
      rfl

/-- The values of four hexadecimal digits. -/
def quadValues (n : ℕ) : List ℕ :=
  [n / 4096 % 16, n / 256 % 16, n / 16 % 16, n % 16]

lemma hexValue?_digitChar : ∀ digit < 16, hexValue? (Nat.digitChar digit) = some digit := by
  decide

lemma hexValue?_toUpper : ∀ digit < 16, hexValue? (Nat.digitChar digit).toUpper = some digit := by
  decide

/-- Four digits have their values, however the letters among them are spelled. -/
lemma mapM_map_hexQuad {spell : Char → Char}
    (h : ∀ digit < 16, hexValue? (spell (Nat.digitChar digit)) = some digit) (n : ℕ) :
    ((hexQuad n).map spell).mapM hexValue? = some (quadValues n) := by
  have hvalue : ∀ k, hexValue? (spell (Nat.digitChar (k % 16))) = some (k % 16) := fun k =>
    h _ (Nat.mod_lt k (by decide))
  simp [hexQuad, quadValues, hvalue]

/-- Four digits stand for the number. -/
lemma numberOf_quadValues {n : ℕ} (h : n < 0x10000) : numberOf 16 (quadValues n) = n := by
  simp only [numberOf, quadValues, List.foldl_cons, List.foldl_nil]
  omega

end ScriptLint.Text
