import ScriptLint.Json.Printing
import ScriptLint.Json.Reading
import ScriptLint.Proofs.Decimal.Written
import ScriptLint.Proofs.Text.Hex

/-!
JSON strings and numbers read back.

* `readString_escape`: a string is read back from its text in quotes.
* `Number.IsJson`: a number that is written by the rules, `readNumber_text`: it is read back.
* `Number.isJson_ofNat`, `Number.isJson_ofDigits`: whole numbers and decimals are so written.
* `Number.toWord?_ofNat`: a whole number of 64 bits is read as itself.
-/

namespace ScriptLint.Json

/-! ### Strings -/

section Strings

variable {bound : ℕ} {c : Char} {rest text : List Char}

/-- The characters of a string behind one more character. -/
def withChar (c : Char) (found : List (Option Char) × List Char) :
    List (Option Char) × List Char :=
  (some c :: found.1, found.2)

lemma readQuad_hexQuad {n : ℕ} (h : n < 0x10000) (rest : List Char) :
    readQuad (Text.hexQuad n ++ rest) = some (n, rest) := by
  have hvalues := @Text.mapM_map_hexQuad id Text.hexValue?_digitChar n
  have hnumber := Text.numberOf_quadValues h
  rw [List.map_id, Text.hexQuad] at hvalues
  simp only [Text.hexQuad, List.cons_append, List.nil_append, readQuad, hvalues]
  exact congrArg (fun value => some (value, rest)) hnumber

/-- A control character is read from its code. -/
lemma readEscape_hexQuad (h : c.toNat < 0x20) (rest : List Char) :
    readEscape ('u' :: (Text.hexQuad c.toNat ++ rest)) = some (some c, rest) := by
  have hquad := readQuad_hexQuad (h.trans (by decide)) rest
  have hupper : ¬ (0xD800 ≤ c.toNat ∧ c.toNat < 0xDC00) := by omega
  have hlower : ¬ (0xDC00 ≤ c.toNat ∧ c.toNat < 0xE000) := by omega
  rw [readEscape, readUnits, hquad]
  simp only [Option.bind_eq_bind, Option.bind_some, Bool.and_eq_true, decide_eq_true_eq]
  rw [if_neg hupper, if_neg hlower, Char.ofNat_toNat]

/-- An escape is read as one character. -/
lemma readStringFrom_escape (h : readEscape text = some (some c, rest)) (bound : ℕ) :
    readStringFrom (bound + 1) ('\\' :: text) =
      (readStringFrom bound rest).map (withChar c) := by
  rw [readStringFrom, if_neg (by decide), if_pos rfl, h]
  simp only [Option.bind_eq_bind, Option.bind_some]
  cases readStringFrom bound rest <;> rfl

/-- A character is read from what it is written as. -/
lemma readStringFrom_escapeChar (c : Char) (bound : ℕ) (rest : List Char) :
    readStringFrom (bound + 1) (escapeChar c ++ rest) =
      (readStringFrom bound rest).map (withChar c) := by
  rw [escapeChar]
  split_ifs with h₁ h₂ h₃ h₄ h₅ h₆ h₇ h₈
  · subst h₁
    exact readStringFrom_escape rfl bound
  · subst h₂
    exact readStringFrom_escape rfl bound
  · subst h₃
    exact readStringFrom_escape rfl bound
  · subst h₄
    exact readStringFrom_escape rfl bound
  · subst h₅
    exact readStringFrom_escape rfl bound
  · subst h₆
    exact readStringFrom_escape rfl bound
  · subst h₇
    exact readStringFrom_escape rfl bound
  · exact readStringFrom_escape (readEscape_hexQuad h₈ rest) bound
  · rw [List.singleton_append, readStringFrom, if_neg h₁, if_neg h₂, if_neg h₈]
    cases readStringFrom bound rest <;> rfl

/-- All characters of a text are read from what they are written as. -/
lemma readStringFrom_escape_text (h : text.length < bound) (rest : List Char) :
    readStringFrom bound (escape text ++ '"' :: rest) = some (text.map some, rest) := by
  induction text generalizing bound with
  | nil =>
      obtain ⟨bound, rfl⟩ := Nat.exists_eq_add_of_le' (Nat.one_le_of_lt h)
      rfl
  | cons c text ih =>
      rw [List.length_cons] at h
      obtain ⟨bound, rfl⟩ := Nat.exists_eq_add_of_le' (by omega : 1 ≤ bound)
      have hescape : escape (c :: text) = escapeChar c ++ escape text := rfl
      rw [hescape, List.append_assoc, readStringFrom_escapeChar, ih (by omega)]
      rfl

lemma length_le_length_escape (text : List Char) : text.length ≤ (escape text).length := by
  induction text with
  | nil => exact le_rfl
  | cons c text ih =>
      have hone : 1 ≤ (escapeChar c).length := by
        rw [escapeChar]
        split_ifs <;> simp
      have hescape : escape (c :: text) = escapeChar c ++ escape text := rfl
      rw [hescape, List.length_append, List.length_cons]
      omega

/-- **Strings** are read back from their text in quotes. -/
theorem readString_escape (value : String) (rest : List Char) :
    readString (escape value.toList ++ '"' :: rest) = some (some value, rest) := by
  have hlength := length_le_length_escape value.toList
  have hall : (value.toList.map some).mapM id = some value.toList :=
    Text.mapM_map_eq_some fun _ _ => rfl
  rw [readString, readStringFrom_escape_text (by simp; omega)]
  simp only [Option.bind_eq_bind, Option.bind_some, hall, Option.map_some, String.ofList_toList]

end Strings

/-! ### Numbers -/

namespace Number

/-- A number is written by the rules: digits before and perhaps behind a point, without a
needless zero at the start. -/
structure IsJson (number : Number) : Prop where
  ne_nil : number.whole ≠ []
  isDigit : ∀ c ∈ number.whole ++ number.fraction, c.isDigit = true
  eq_of_head : number.whole.head? = some '0' → number.whole = ['0']

/-- A number ends before this text. -/
def EndsBefore (rest : List Char) : Prop :=
  ∀ c ∈ rest.head?, c.isDigit = false ∧ c ≠ '.' ∧ c ≠ 'e' ∧ c ≠ 'E'

variable {number : Number} {digits rest : List Char}

/-- Digits are read up to what is no digit. -/
lemma readDigits_append (hne : digits ≠ []) (hdigits : ∀ c ∈ digits, c.isDigit = true)
    (hrest : ∀ c ∈ rest.head?, c.isDigit = false) :
    readDigits (digits ++ rest) = some (digits, rest) := by
  have htake : rest.takeWhile Char.isDigit = [] := by
    cases rest with
    | nil => rfl
    | cons c rest => rw [List.takeWhile_cons, hrest c rfl]; rfl
  have hdrop : rest.dropWhile Char.isDigit = rest := by
    cases rest with
    | nil => rfl
    | cons c rest => rw [List.dropWhile_cons, hrest c rfl]; rfl
  have hempty : digits.isEmpty = false := List.isEmpty_eq_false_iff.mpr hne
  rw [readDigits, List.takeWhile_append_of_pos hdigits, List.dropWhile_append_of_pos hdigits,
    htake, hdrop, List.append_nil]
  simp only [hempty, Bool.false_eq_true, if_false]

/-- The digits before the point. -/
lemma readWhole_append (hne : digits ≠ []) (hdigits : ∀ c ∈ digits, c.isDigit = true)
    (hzero : digits.head? = some '0' → digits = ['0'])
    (hrest : ∀ c ∈ rest.head?, c.isDigit = false) :
    readWhole (digits ++ rest) = some (digits, rest) := by
  obtain ⟨first, more, rfl⟩ := List.exists_cons_of_ne_nil hne
  by_cases hfirst : first = '0'
  · subst hfirst
    rw [hzero rfl]
    rfl
  · have hwhole : readWhole (first :: more ++ rest) = readDigits (first :: more ++ rest) := by
      rw [List.cons_append, readWhole]
      intro text h
      exact hfirst (List.cons.inj h).1
    rw [hwhole]
    exact readDigits_append hne hdigits hrest

/-- The digits behind the point, if there are any. -/
lemma readFraction_append {fraction : List Char} (hdigits : ∀ c ∈ fraction, c.isDigit = true)
    (hrest : ∀ c ∈ rest.head?, c.isDigit = false ∧ c ≠ '.') :
    readFraction ((if fraction.isEmpty then [] else '.' :: fraction) ++ rest) =
      some (fraction, rest) := by
  cases fraction with
  | nil =>
      cases rest with
      | nil => rfl
      | cons c rest =>
          have hpoint : c ≠ '.' := (hrest c rfl).2
          exact readFraction.eq_2 _ fun text h => hpoint (List.cons.inj h).1
  | cons c fraction =>
      exact readDigits_append (List.cons_ne_nil c fraction) hdigits fun c hc => (hrest c hc).1

/-- The exponent, if there is one. -/
lemma readExponent_append (exponent? : Option ℤ) (hrest : EndsBefore rest) :
    readExponent ((exponent?.map exponentText).getD [] ++ rest) = some (exponent?, rest) := by
  cases exponent? with
  | none =>
      cases rest with
      | nil => rfl
      | cons c rest =>
          obtain ⟨-, -, hsmall, hcapital⟩ := hrest c rfl
          have hletter : ¬ (c == 'e' || c == 'E') = true := by simp [hsmall, hcapital]
          exact if_neg hletter
  | some exponent =>
      have hdigits := readDigits_append (Nat.toDigits_ne_nil (n := exponent.natAbs) (b := 10))
        (fun c hc => Decimal.isDigit_of_mem_toDigits hc) fun c hc => (hrest c hc).1
      have hvalue := Decimal.natOfDigits_toDigits exponent.natAbs
      rw [Option.map_some, Option.getD_some, exponentText]
      by_cases hsign : exponent < 0
      · have hsize : -(exponent.natAbs : ℤ) = exponent := by omega
        rw [if_pos hsign]
        simp only [List.cons_append, readExponent, readSign, hdigits, hvalue, hsize,
          beq_self_eq_true, Bool.true_or, if_true, Option.bind_eq_bind, Option.bind_some]
      · have hsize : (exponent.natAbs : ℤ) = exponent := by omega
        rw [if_neg hsign]
        simp only [List.cons_append, readExponent, readSign, hdigits, hvalue, hsize,
          beq_self_eq_true, Bool.true_or, if_true, Option.bind_eq_bind, Option.bind_some,
          Bool.false_eq_true, if_false]

/-- What stands behind the point goes on with no digit. -/
lemma head_exponent (exponent? : Option ℤ) (hrest : EndsBefore rest) :
    ∀ c ∈ ((exponent?.map exponentText).getD [] ++ rest).head?, c.isDigit = false ∧ c ≠ '.' := by
  intro c hc
  cases exponent? with
  | none => exact ⟨(hrest c hc).1, (hrest c hc).2.1⟩
  | some exponent =>
      obtain rfl : 'e' = c := Option.some.inj hc
      exact ⟨rfl, by decide⟩

/-- The rest of a number behind its sign. -/
lemma readUnsigned_text (h : number.IsJson) (hrest : EndsBefore rest) :
    readUnsigned number.negative (Decimal.pointed (number.whole, number.fraction) ++
      ((number.exponent?.map exponentText).getD [] ++ rest)) = some (number, rest) := by
  obtain ⟨negative, whole, fraction, exponent?⟩ := number
  obtain ⟨hne, hdigits, hzero⟩ := h
  dsimp only at hne hdigits hzero ⊢
  have hexponent := head_exponent exponent? hrest
  generalize htail : (exponent?.map exponentText).getD [] ++ rest = tail at hexponent ⊢
  have hpointed : Decimal.pointed (whole, fraction) =
      whole ++ if fraction.isEmpty then [] else '.' :: fraction := by
    rw [Decimal.pointed]
    cases fraction <;> simp
  have hpoint : ∀ c ∈ ((if fraction.isEmpty then [] else '.' :: fraction) ++ tail).head?,
      c.isDigit = false := by
    intro c hc
    cases fraction with
    | nil => exact (hexponent c hc).1
    | cons first fraction =>
        obtain rfl : '.' = c := Option.some.inj hc
        rfl
  rw [hpointed, List.append_assoc, readUnsigned,
    readWhole_append hne (fun c hc => hdigits c (List.mem_append_left _ hc)) hzero hpoint]
  simp only [Option.bind_eq_bind, Option.bind_some]
  rw [readFraction_append (fun c hc => hdigits c (List.mem_append_right _ hc)) hexponent]
  simp only [Option.bind_some]
  rw [← htail, readExponent_append exponent? hrest]
  rfl

/-- **Numbers** are read back before what does not go on with them. -/
theorem readNumber_text (h : number.IsJson) (hrest : EndsBefore rest) :
    readNumber (number.text ++ rest) = some (number, rest) := by
  have hunsigned := readUnsigned_text h hrest
  rw [text, List.append_assoc, List.append_assoc]
  cases hnegative : number.negative with
  | true =>
      rw [hnegative] at hunsigned
      exact hunsigned
  | false =>
      rw [hnegative] at hunsigned
      obtain ⟨first, more, hfirst⟩ := List.exists_cons_of_ne_nil h.ne_nil
      have hdigit := h.isDigit first
        (List.mem_append_left _ (by rw [hfirst]; exact List.mem_cons_self))
      have hunsign : first ≠ '-' := by
        rintro rfl
        cases hdigit
      have hread : ∀ tail, readNumber (first :: tail) = readUnsigned false (first :: tail) :=
        fun tail => readNumber.eq_2 _ fun text heq => hunsign (List.cons.inj heq).1
      have hpointed : ∃ tail, Decimal.pointed (number.whole, number.fraction) = first :: tail := by
        rw [Decimal.pointed, hfirst]
        split_ifs
        · exact ⟨_, rfl⟩
        · exact ⟨_, rfl⟩
      obtain ⟨tail, htail⟩ := hpointed
      rw [htail] at hunsigned ⊢
      exact (hread _).trans hunsigned

/-! ### Written numbers -/

/-- A natural number is written by the rules. -/
lemma isJson_ofNat (n : ℕ) : (ofNat n).IsJson where
  ne_nil := Nat.toDigits_ne_nil
  isDigit c hc := by
    rw [ofNat, List.append_nil] at hc
    exact Decimal.isDigit_of_mem_toDigits hc
  eq_of_head := Decimal.toDigits_eq_of_head n

/-- A natural number of 64 bits is read as itself. -/
lemma toWord?_ofNat {n : ℕ} (h : n < UInt64.size) : (ofNat n).toWord? = some n := by
  have hvalue : Decimal.natOfDigits (ofNat n).whole = n := Decimal.natOfDigits_toDigits n
  have hwhole : (ofNat n).isWhole = true := rfl
  have hsign : (ofNat n).negative = false := rfl
  rw [toWord?, hvalue, hwhole, hsign]
  simp only [Bool.not_false, Bool.true_and, decide_eq_true_eq, h, if_true]

/-- A decimal is written by the rules. -/
lemma isJson_ofDigits (negative : Bool) {digits : Decimal.Digits}
    (h : 0 < digits.value ∨ digits.exponent = 0) : (ofDigits negative digits).IsJson := by
  rw [ofDigits]
  dsimp only
  split_ifs with hposition
  · obtain ⟨hne, hdigits, hhead, -⟩ := Decimal.isWritten_positional true digits h
    exact ⟨hne, hdigits, hhead⟩
  · -- one digit stands before the point
    obtain ⟨first, more, hall⟩ := List.exists_cons_of_ne_nil
      (Nat.toDigits_ne_nil : Nat.toDigits 10 digits.value ≠ [])
    rw [hall]
    refine ⟨List.cons_ne_nil _ _, fun c hc => ?_, fun hhead => ?_⟩
    · have hmem : c ∈ Nat.toDigits 10 digits.value := by
        rw [hall]
        exact hc
      exact Decimal.isDigit_of_mem_toDigits hmem
    · rw [Option.some.inj hhead]
      rfl

end Number

end ScriptLint.Json
