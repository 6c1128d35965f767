import Mathlib
import ScriptLint.Issue

/-!
What the text of an issue tells.

* `Text.append_cons_inj`, `Text.toString_append_cons_inj`: a text before a character that it
  does not hold is read back; so is a number.
* `Problem.eq_of_message`: the code and the message tell the problem with all its facts.
* `Issue.ofFinding_injective`: so an issue tells its finding.
-/

namespace ScriptLint

namespace Text

/-- A text before a character that it does not hold is read back, and so is what follows. -/
lemma append_cons_inj {c : Char} {a b x y : List Char} (ha : c ∉ a) (hb : c ∉ b)
    (h : a ++ c :: x = b ++ c :: y) : a = b ∧ x = y := by
  induction a generalizing b with
  | nil =>
      cases b with
      | nil => exact ⟨rfl, (List.cons.inj h).2⟩
      | cons d rest => exact absurd ((List.cons.inj h).1 ▸ List.mem_cons_self) hb
  | cons d rest ih =>
      rw [List.mem_cons, not_or] at ha
      cases b with
      | nil => exact absurd (List.cons.inj h).1.symm ha.1
      | cons e more =>
          rw [List.mem_cons, not_or] at hb
          obtain ⟨rfl, hrest⟩ := List.cons.inj h
          obtain ⟨rfl, hbehind⟩ := ih ha.2 hb.2 hrest
          exact ⟨rfl, hbehind⟩

/-- A number is written with digits, which are read back before another character. -/
lemma toString_append_cons_inj {c : Char} (hc : c.isDigit = false) {a b : Nat} {x y : List Char}
    (h : (toString a).toList ++ c :: x = (toString b).toList ++ c :: y) : a = b ∧ x = y := by
  have hdigits : ∀ n : Nat, c ∉ (toString n).toList := by
    intro n hmem
    have hdigit : c ∈ Nat.toDigits 10 n := by simpa [toString, Nat.repr] using hmem
    rw [Nat.isDigit_of_mem_toDigits (by decide) (by decide) hdigit] at hc
    cases hc
  obtain ⟨hnumber, hbehind⟩ := append_cons_inj (hdigits a) (hdigits b) h
  exact ⟨Nat.repr_injective (String.toList_inj.mp hnumber), hbehind⟩

/-- So it is before a space. -/
lemma toString_append_inj {a b : Nat} {x y : String}
    (h : toString a ++ (" " ++ x) = toString b ++ (" " ++ y)) : a = b ∧ x = y := by
  have htext : (toString a).toList ++ ' ' :: x.toList = (toString b).toList ++ ' ' :: y.toList := by
    have hlists := congrArg String.toList h
    rwa [String.toList_append, String.toList_append, String.toList_append,
      String.toList_append] at hlists
  obtain ⟨hnumber, hbehind⟩ := toString_append_cons_inj (by decide) htext
  exact ⟨hnumber, String.toList_inj.mp hbehind⟩

/-- A character in front of a text is read back. -/
lemma toString_char_append_inj {c d : Char} {x y : String}
    (h : c.toString ++ x = d.toString ++ y) : c = d ∧ x = y := by
  have hlists := congrArg String.toList h
  rw [String.toList_append, String.toList_append, Char.toString, Char.toString,
    String.toList_singleton, String.toList_singleton] at hlists
  obtain ⟨rfl, hbehind⟩ := List.cons.inj hlists
  exact ⟨rfl, String.toList_inj.mp hbehind⟩

end Text

namespace Problem

/-- A kind of block is named between quotes by a word that holds none. -/
lemma quoted_display_inj {a b : BlockKind} {x y : String}
    (h : quoted a.display ++ x = quoted b.display ++ y) : a = b ∧ x = y := by
  have hquote : ∀ kind : BlockKind, '\'' ∉ kind.display.toList := by
    intro kind
    cases kind <;> decide
  have hname : ∀ a b : BlockKind, a.display.toList = b.display.toList → a = b := by
    intro a b
    cases a <;> cases b <;> decide
  have htext : a.display.toList ++ '\'' :: x.toList = b.display.toList ++ '\'' :: y.toList := by
    have hlists := congrArg String.toList h
    simp only [quoted, String.toList_append, List.append_assoc] at hlists
    exact (List.append_right_inj _).mp hlists
  obtain ⟨hdisplay, hbehind⟩ := Text.append_cons_inj (hquote a) (hquote b) htext
  exact ⟨hname a b hdisplay, String.toList_inj.mp hbehind⟩

/-- A character between quotes is read back. -/
lemma quoted_char_inj {c d : Char} {x y : String}
    (h : quoted c.toString ++ x = quoted d.toString ++ y) : c = d ∧ x = y := by
  have hsplit : ∀ (c : Char) (x : String),
      quoted c.toString ++ x = "'" ++ (c.toString ++ ("'" ++ x)) := by
    intro c x
    rw [quoted, String.append_assoc, String.append_assoc]
  rw [hsplit, hsplit, String.append_right_inj] at h
  obtain ⟨rfl, hbehind⟩ := Text.toString_char_append_inj h
  exact ⟨rfl, (String.append_right_inj _).mp hbehind⟩

/-- A name between quotes, in a fixed sentence, is read back. -/
lemma quoted_inj (before behind : String) {a b : String}
    (h : before ++ quoted a ++ behind = before ++ quoted b ++ behind) : a = b := by
  rw [String.append_left_inj, String.append_right_inj, quoted, quoted, String.append_left_inj,
    String.append_right_inj] at h
  exact h

/-! ### Sentences -/

/-- What the number of brackets in a line is said to be is told by the sentence. -/
lemma unbalanced_inj {kind : BracketKind} {lefts rights lefts' rights' : Nat}
    (h : (unbalanced kind lefts rights).message = (unbalanced kind lefts' rights').message) :
    lefts = lefts' ∧ rights = rights' := by
  have hsentence : ∀ l r : Nat, (unbalanced kind l r).message = "Unmatched " ++
      (quoted (surplus kind l r).char.toString ++ (": " ++ (toString l ++ (" " ++
        ("opening vs " ++ (toString r ++ " closing")))))) := by
    intro l r
    have hspace : " opening vs " = " " ++ "opening vs " := by decide
    have hnested : (unbalanced kind l r).message = "Unmatched " ++
      quoted (surplus kind l r).char.toString ++ ": " ++ toString l ++ " opening vs " ++
        toString r ++ " closing" := rfl
    rw [hnested, hspace]
    repeat rw [String.append_assoc]
  rw [hsentence, hsentence, String.append_right_inj] at h
  obtain ⟨_, hcounts⟩ := quoted_char_inj h
  obtain ⟨rfl, hrights⟩ := Text.toString_append_inj ((String.append_right_inj _).mp hcounts)
  rw [String.append_right_inj, String.append_left_inj] at hrights
  exact ⟨rfl, Nat.repr_injective hrights⟩

section Blocks

variable {openedAt openedAt' : Nat} {closer kind kind' : BlockKind}

lemma unclosed_inj (h : (unclosed kind openedAt).message = (unclosed kind' openedAt').message) :
    kind = kind' ∧ openedAt = openedAt' := by
  have hsentence : ∀ kind n, (unclosed kind n).message = quoted kind.display ++
      (" opened at line " ++ toString n ++ " is never closed with " ++
        quoted kind.closer.word) := by
    intro kind n
    rw [← String.append_assoc, ← String.append_assoc, ← String.append_assoc]
    rfl
  rw [hsentence, hsentence] at h
  obtain ⟨rfl, hline⟩ := quoted_display_inj h
  rw [String.append_left_inj, String.append_left_inj, String.append_right_inj] at hline
  exact ⟨rfl, Nat.repr_injective hline⟩

/-- The sentence about a closer that closes another block, behind the closer. -/
lemma message_mismatched (closer kind : BlockKind) (n : Nat) :
    (mismatched closer kind n).message = quoted closer.closer.word ++
      (" does not match " ++ (quoted kind.display ++ (" opened at line " ++ toString n))) := by
  rw [← String.append_assoc, ← String.append_assoc, ← String.append_assoc]
  rfl

lemma mismatched_inj (h : (mismatched closer kind openedAt).message =
    (mismatched closer kind' openedAt').message) : kind = kind' ∧ openedAt = openedAt' := by
  rw [message_mismatched, message_mismatched, String.append_right_inj,
    String.append_right_inj] at h
  obtain ⟨rfl, hline⟩ := quoted_display_inj h
  exact ⟨rfl, Nat.repr_injective ((String.append_right_inj _).mp hline)⟩

/-- A closer that closes another block and one that closes none are told apart by the words
that follow the closer. -/
lemma mismatched_ne_stray : (mismatched closer kind openedAt).message ≠ (stray closer).message := by
  intro h
  have hstray : (stray closer).message = quoted closer.closer.word ++
      (" without matching " ++ quoted closer.display) := by
    rw [← String.append_assoc]
    rfl
  rw [message_mismatched, hstray, String.append_right_inj] at h
  have hlists := congrArg (fun text : String => text.toList[1]?) h
  simp at hlists

end Blocks

/-- **The problem in the report**: the code and the message tell the problem with all its
facts. -/
theorem eq_of_message {a b : Problem} (hcode : a.code = b.code) (h : a.message = b.message) :
    a = b := by
  cases a with
  | unbalanced kind lefts rights =>
      obtain ⟨lefts', rights', rfl⟩ : ∃ lefts' rights', b = unbalanced kind lefts' rights' := by
        cases kind <;> cases b with
        | unbalanced kind' lefts' rights' =>
            cases kind' <;> first | exact ⟨lefts', rights', rfl⟩ | cases hcode
        | _ => cases hcode
      obtain ⟨rfl, rfl⟩ := unbalanced_inj h
      rfl
  | invalidCharacter char =>
      cases b with
      | invalidCharacter char' =>
          have hchar : quoted char.toString ++ "" = quoted char'.toString ++ "" :=
            congrArg (· ++ "") ((String.append_right_inj "Invalid character ").mp h)
          rw [(quoted_char_inj hchar).1]
      -- the code of an unbalanced line is told by the kind of its brackets
      | unbalanced kind => cases kind <;> cases hcode
      | _ => cases hcode
  | unclosed =>
      cases b with
      | unclosed =>
          obtain ⟨rfl, rfl⟩ := unclosed_inj h
          rfl
      | unbalanced kind => cases kind <;> cases hcode
      | _ => cases hcode
  | mismatched =>
      cases b with
      | mismatched =>
          obtain rfl := IssueCode.unmatchedEnd.inj hcode
          obtain ⟨rfl, rfl⟩ := mismatched_inj h
          rfl
      | stray =>
          obtain rfl := IssueCode.unmatchedEnd.inj hcode
          exact absurd h mismatched_ne_stray
      | unbalanced kind => cases kind <;> cases hcode
      | _ => cases hcode
  | stray =>
      cases b with
      | mismatched =>
          obtain rfl := IssueCode.unmatchedEnd.inj hcode
          exact absurd h.symm mismatched_ne_stray
      | stray =>
          obtain rfl := IssueCode.unmatchedEnd.inj hcode
          rfl
      | unbalanced kind => cases kind <;> cases hcode
      | _ => cases hcode
  | redeclared =>
      cases b with
      | redeclared => rw [quoted_inj "Variable " " is already declared" h]
      | unbalanced kind => cases kind <;> cases hcode
      | _ => cases hcode
  | undeclared =>
      cases b with
      | undeclared => rw [quoted_inj "Variable " " is used before declaration" h]
      | unbalanced kind => cases kind <;> cases hcode
      | _ => cases hcode
  | unused =>
      cases b with
      | unused => rw [quoted_inj "Variable " " is declared but never used" h]
      | unbalanced kind => cases kind <;> cases hcode
      | _ => cases hcode
  | unknownFunction =>
      cases b with
      | unknownFunction =>
          rw [quoted_inj "Unknown function " "" (congrArg (· ++ "") h)]
      | unbalanced kind => cases kind <;> cases hcode
      | _ => cases hcode
  | infiniteLoop =>
      cases b with
      | infiniteLoop => rfl
      | unbalanced kind => cases kind <;> cases hcode
      | _ => cases hcode

end Problem

/-- An issue tells its finding. -/
theorem Issue.ofFinding_injective : Function.Injective Issue.ofFinding := by
  intro a b h
  have hplace : a.place = b.place := congrArg Issue.place h
  have hproblem := Problem.eq_of_message (congrArg Issue.code h) (congrArg Issue.message h)
  cases a
  cases b
  exact congrArg₂ Finding.mk hplace hproblem

end ScriptLint
