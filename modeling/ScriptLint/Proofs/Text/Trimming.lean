import Mathlib
import ScriptLint.Text.Blank

/-!
Cutting blanks from the ends of a text.

* `exists_trimEnd_split`, `exists_trimStart_split`: what is cut off is blank.
* `exists_trim_split`: a text is its trimmed text with blanks on both sides.
* `trim_eq_nil_iff`: nothing is left of blanks only.
* `trimStart_append_cons`, `trimEnd_append_cons`, `trim_append_cons`,
  `leadingBlanks_append_cons`: cutting ends at a character that is not blank.
* `not_blank_of_trim_cons`, `not_blank_of_trim_concat`, `trim_trim`, `leadingBlanks_trim`: no
  blanks are left at the ends of a trimmed text.
-/

namespace ScriptLint.Text

variable {text before later : List Char} {c : Char}

/-- What is cut off at the end is blank. -/
lemma exists_trimEnd_split (text : List Char) :
    ∃ trailing, text = trimEnd text ++ trailing ∧ ∀ c ∈ trailing, isBlank c = true := by
  refine ⟨(text.reverse.takeWhile isBlank).reverse, ?_, fun c hc => ?_⟩
  · rw [trimEnd, ← List.reverse_append, List.takeWhile_append_dropWhile, List.reverse_reverse]
  · exact List.mem_takeWhile_imp (List.mem_reverse.mp hc)

/-- What is cut off at the start is blank. -/
lemma exists_trimStart_split (text : List Char) :
    ∃ leading, text = leading ++ trimStart text ∧ ∀ c ∈ leading, isBlank c = true :=
  ⟨text.takeWhile isBlank, List.takeWhile_append_dropWhile.symm,
    fun _ hc => List.mem_takeWhile_imp hc⟩

/-- A text is its trimmed text with blanks on both sides, those at the start as
many as are counted. -/
lemma exists_trim_split (text : List Char) :
    ∃ leading trailing, text = leading ++ (trim text ++ trailing) ∧
      leading.length = leadingBlanks text ∧
        (∀ c ∈ leading, isBlank c = true) ∧ ∀ c ∈ trailing, isBlank c = true := by
  obtain ⟨leading, hstart, hleading⟩ := exists_trimStart_split text
  obtain ⟨trailing, hend, htrailing⟩ := exists_trimEnd_split (trimStart text)
  refine ⟨leading, trailing, ?_, ?_, hleading, htrailing⟩
  · rw [trim, ← hend, ← hstart]
  · have hcount := leadingBlanks_add_length text
    have hlength := congrArg List.length hstart
    rw [List.length_append] at hlength
    omega

/-- Nothing is left of a text exactly when it has blanks only. -/
lemma trim_eq_nil_iff : trim text = [] ↔ ∀ c ∈ text, isBlank c = true := by
  constructor
  · intro h
    obtain ⟨leading, trailing, hsplit, _, hleading, htrailing⟩ := exists_trim_split text
    rw [h, List.nil_append] at hsplit
    intro c hc
    rw [hsplit, List.mem_append] at hc
    exact hc.elim (hleading c) (htrailing c)
  · intro h
    have hstart : trimStart text = [] := List.dropWhile_eq_nil_iff.mpr h
    rw [trim, hstart]
    rfl

/-- Cutting at the start ends at a character that is not blank. -/
lemma trimStart_append_cons (h : isBlank c = false) :
    trimStart (before ++ c :: later) = trimStart before ++ c :: later := by
  induction before with
  | nil => exact trimStart_cons_of_not_blank later h
  | cons d rest ih =>
      by_cases hd : isBlank d = true
      · have hstart : ∀ text, trimStart (d :: text) = trimStart text := by
          intro text
          rw [trimStart, trimStart, List.dropWhile_cons_of_pos hd]
        rw [List.cons_append, hstart, hstart, ih]
      · have hd := Bool.eq_false_iff.mpr hd
        rw [List.cons_append, trimStart_cons_of_not_blank _ hd, trimStart_cons_of_not_blank _ hd,
          List.cons_append]

/-- Cutting at the end stops at a character that is not blank. -/
lemma trimEnd_append_cons (h : isBlank c = false) :
    trimEnd (before ++ c :: later) = before ++ c :: trimEnd later := by
  have hreverse : (before ++ c :: later).reverse = later.reverse ++ c :: before.reverse := by
    simp
  have hcut : trimStart (later.reverse ++ c :: before.reverse) =
      trimStart later.reverse ++ c :: before.reverse := trimStart_append_cons h
  rw [trimStart, trimStart] at hcut
  rw [trimEnd, hreverse, hcut, trimEnd]
  simp

/-- A character that is not blank is kept, and the blanks are cut on both sides of
it. -/
lemma trim_append_cons (h : isBlank c = false) :
    trim (before ++ c :: later) = trimStart before ++ c :: trimEnd later := by
  rw [trim, trimStart_append_cons h, trimEnd_append_cons h]

/-- The leading blanks stand before the first character that is not blank. -/
lemma leadingBlanks_append_cons (h : isBlank c = false) :
    leadingBlanks (before ++ c :: later) = leadingBlanks before := by
  have hwhole := leadingBlanks_add_length (before ++ c :: later)
  have hbefore := leadingBlanks_add_length before
  rw [trimStart_append_cons h, List.length_append, List.length_append] at hwhole
  omega

/-- Cutting at the start leaves a character in front that is not blank. -/
lemma not_blank_of_dropWhile {rest : List Char} (h : text.dropWhile isBlank = c :: rest) :
    isBlank c = false := by
  have hne : text.dropWhile isBlank ≠ [] := h ▸ List.cons_ne_nil c rest
  have hhead := List.head_dropWhile_not isBlank hne
  simpa only [h, List.head_cons] using hhead

/-- A trimmed text does not begin with a blank. -/
lemma not_blank_of_trim_cons {rest : List Char} (h : trim text = c :: rest) :
    isBlank c = false := by
  cases hstart : trimStart text with
  | nil =>
      rw [trim, hstart] at h
      cases h
  | cons d more =>
      have hd : isBlank d = false := not_blank_of_dropWhile hstart
      have hcut : trimEnd ([] ++ d :: more) = [] ++ d :: trimEnd more := trimEnd_append_cons hd
      rw [trim, hstart] at h
      obtain ⟨rfl, _⟩ := List.cons.inj (hcut.symm.trans h)
      exact hd

/-- A trimmed text does not end with a blank. -/
lemma not_blank_of_trim_concat (h : trim text = before ++ [c]) : isBlank c = false := by
  have hcut : (trimStart text).reverse.dropWhile isBlank = c :: before.reverse := by
    rw [← List.reverse_inj, List.reverse_cons, List.reverse_reverse]
    exact h
  exact not_blank_of_dropWhile hcut

/-- To trim twice is to trim once. -/
lemma trim_trim (text : List Char) : trim (trim text) = trim text := by
  cases htrim : trim text with
  | nil => rfl
  | cons c rest =>
      have hstart := trimStart_cons_of_not_blank rest (not_blank_of_trim_cons htrim)
      obtain ⟨before, last, hlast⟩ :=
        (List.eq_nil_or_concat' (c :: rest)).resolve_left (List.cons_ne_nil c rest)
      rw [trim, hstart, hlast,
        trimEnd_append_cons (not_blank_of_trim_concat (htrim.trans hlast))]
      rfl

/-- No blank stands in front of a trimmed text. -/
lemma leadingBlanks_trim (text : List Char) : leadingBlanks (trim text) = 0 := by
  cases htrim : trim text with
  | nil => rfl
  | cons c rest =>
      have hc : isBlank c = false := not_blank_of_trim_cons htrim
      rw [leadingBlanks, List.takeWhile_cons_of_neg (by simp [hc])]
      rfl

end ScriptLint.Text
