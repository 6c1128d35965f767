import Mathlib
import ScriptLint.Analysis
import ScriptLint.Proofs.Text.Endings

/-!
Lines joined by line endings of any kind.

* `LineEnding`: LF, CR LF or a lone CR.
* `joinLines`: lines with an ending of any choice between each two; `Unambiguous`: no
  CR and LF that end two different lines stand side by side.
* `unifyEndings_joinLines`: unifying the endings leaves the lines joined by LF.
* `return_not_mem_unifyEndings`, `unifyEndings_eq_self`: the unified text has no CR, and a
  text without CR is unified; `unbroken_physicalLines`: its lines hold no line ending.
* `replaceAll`, `unifyEndings_eq_replaceAll`: unifying is to replace every CR LF, and then
  every CR that is left.
* `lineEndings_immaterial`: the verdict does not depend on the kinds of the endings.
-/

namespace ScriptLint

namespace Text

/-! ### Lines with endings -/

/-- How a line ends. -/
inductive LineEnding where
  | lineFeed
  | returnLineFeed
  | loneReturn
deriving DecidableEq, Repr

/-- The characters of a line ending. -/
def LineEnding.text : LineEnding → List Char
  | lineFeed => ['\n']
  | returnLineFeed => ['\r', '\n']
  | loneReturn => ['\r']

/-- Lines with an ending between each two, chosen by the index of the line before it. -/
def joinLines : (Nat → LineEnding) → List (List Char) → List Char
  | _, [] => []
  | _, [line] => line
  | ending, line :: next :: later =>
    line ++ ((ending 0).text ++ joinLines (fun index => ending (index + 1)) (next :: later))

/-- No lone CR is followed by an empty line that ends in LF, which would read as CR LF. -/
def Unambiguous (ending : Nat → LineEnding) (lines : List (List Char)) : Prop :=
  ∀ index, ending index = .loneReturn → lines[index + 1]? = some [] →
    index + 2 < lines.length → ending (index + 1) ≠ .lineFeed

/-- The lines hold no line ending. -/
def Unbroken (lines : List (List Char)) : Prop :=
  ∀ line ∈ lines, '\r' ∉ line ∧ '\n' ∉ line

instance (lines : List (List Char)) : Decidable (Unbroken lines) :=
  inferInstanceAs (Decidable (∀ line ∈ lines, '\r' ∉ line ∧ '\n' ∉ line))

section Join

variable {ending : Nat → LineEnding} {lines later : List (List Char)} {line : List Char}

lemma Unambiguous.tail (h : Unambiguous ending (line :: later)) :
    Unambiguous (fun index => ending (index + 1)) later :=
  fun index hending hempty hlength =>
    h (index + 1) hending hempty (Nat.succ_lt_succ hlength)

/-- Lines do not begin with LF unless the first one is empty and ends in LF. -/
lemma joinLines_ne_lineFeed (hline : '\n' ∉ line)
    (hfirst : line = [] → later ≠ [] → ending 0 ≠ .lineFeed) (rest : List Char) :
    joinLines ending (line :: later) ≠ '\n' :: rest := by
  intro heq
  cases line with
  | cons c more =>
      have hhead : (joinLines ending ((c :: more) :: later)).head? = some c := by
        cases later <;> rfl
      rw [heq] at hhead
      obtain rfl : '\n' = c := Option.some.inj hhead
      exact hline List.mem_cons_self
  | nil =>
      cases later with
      | nil => cases heq
      | cons next later =>
          have hne := hfirst rfl (List.cons_ne_nil _ _)
          rw [joinLines, List.nil_append] at heq
          cases hending : ending 0 with
          | lineFeed => exact hne hending
          | returnLineFeed =>
              rw [hending] at heq
              exact absurd (List.cons.inj heq).1 (by decide)
          | loneReturn =>
              rw [hending] at heq
              exact absurd (List.cons.inj heq).1 (by decide)

/-- The ending of a line is unified on its own, if no LF stands behind a lone CR. -/
lemma unifyEndings_ending (hline : '\r' ∉ line) {rest : List Char} {kind : LineEnding}
    (h : kind = .loneReturn → ∀ more, rest ≠ '\n' :: more) :
    unifyEndings (line ++ (kind.text ++ rest)) = line ++ '\n' :: unifyEndings rest := by
  rw [unifyEndings_append_left hline]
  refine congrArg (line ++ ·) ?_
  cases kind with
  | lineFeed => exact unifyEndings_cons (by decide)
  | returnLineFeed => exact unifyEndings_return_feed
  | loneReturn => exact unifyEndings_return (h rfl)

/-- **Unified endings**: of joined lines, unifying leaves the lines joined by LF. -/
theorem unifyEndings_joinLines (hne : lines ≠ []) (hlines : Unbroken lines)
    (h : Unambiguous ending lines) :
    unifyEndings (joinLines ending lines) = List.intercalate ['\n'] lines := by
  induction lines generalizing ending with
  | nil => exact absurd rfl hne
  | cons line later ih =>
      obtain ⟨hreturn, _⟩ := hlines line List.mem_cons_self
      cases later with
      | nil =>
          rw [joinLines, List.intercalate_singleton, ← List.append_nil line,
            unifyEndings_append_left hreturn]
          rfl
      | cons next later =>
          have hlater : Unbroken (next :: later) :=
            fun other hother => hlines other (List.mem_cons_of_mem _ hother)
          -- what follows a lone CR begins with LF only where the endings are ambiguous
          have hfeed : ending 0 = .loneReturn → ∀ more,
              joinLines (fun index => ending (index + 1)) (next :: later) ≠ '\n' :: more := by
            intro hending more
            refine joinLines_ne_lineFeed (hlater next List.mem_cons_self).2 ?_ more
            rintro rfl hmore
            have hlength := List.length_pos_of_ne_nil hmore
            exact h 0 hending rfl (by simpa using hlength)
          rw [joinLines, unifyEndings_ending hreturn hfeed,
            ih (List.cons_ne_nil _ _) hlater h.tail, List.intercalate_cons_cons,
            List.append_assoc, List.singleton_append]

end Join

/-! ### Unified texts -/

/-- A unified text has no CR. The induction is along the reading of the text. -/
lemma return_not_mem_unifyEndings (text : List Char) : '\r' ∉ unifyEndings text := by
  fun_induction unifyEndings text with
  | case1 => exact List.not_mem_nil
  | case2 rest ih => simpa using ih
  | case3 rest _ ih => simpa using ih
  | case4 c rest _ hc ih =>
      rw [List.mem_cons, not_or]
      exact ⟨fun heq => hc heq.symm, ih⟩

/-- A text without CR is unified. -/
lemma unifyEndings_eq_self {text : List Char} (h : '\r' ∉ text) : unifyEndings text = text := by
  rw [← List.append_nil text, unifyEndings_append_left h]
  rfl

/-- The lines of a unified text hold no line ending. -/
lemma unbroken_physicalLines (text : List Char) :
    Unbroken (physicalLines (unifyEndings text)) := by
  intro line hmem
  obtain ⟨index, hget⟩ := List.mem_iff_getElem?.mp hmem
  obtain ⟨before, after, hsplit, hfeed, _⟩ := exists_line_split hget
  refine ⟨fun hreturn => return_not_mem_unifyEndings text ?_, hfeed⟩
  rw [hsplit]
  exact List.mem_append_right _ (List.mem_append_left _ hreturn)

/-! ### Replacing -/

/-- The text with each occurrence of a pattern replaced. The occurrences are looked for
from the left, and do not overlap. -/
def replaceAll (pattern replacement : List Char) : List Char → List Char
  | [] => []
  | c :: rest =>
    if pattern.isPrefixOf (c :: rest) then
      replacement ++ replaceAll pattern replacement (rest.drop (pattern.length - 1))
    else
      c :: replaceAll pattern replacement rest
termination_by text => text.length

/-- A line ending that is unified is one of two patterns: CR LF is replaced first, and then
each CR that is left. The induction is along the reading of the text. -/
theorem unifyEndings_eq_replaceAll (text : List Char) :
    unifyEndings text = replaceAll ['\r'] ['\n'] (replaceAll ['\r', '\n'] ['\n'] text) := by
  have hfeed : ∀ text, replaceAll ['\r'] ['\n'] ('\n' :: text) =
      '\n' :: replaceAll ['\r'] ['\n'] text := by
    intro text
    rw [replaceAll, if_neg (by simp)]
  fun_induction unifyEndings text with
  | case1 => simp [replaceAll]
  | case2 rest ih =>
      have hpair : replaceAll ['\r', '\n'] ['\n'] ('\r' :: '\n' :: rest) =
          '\n' :: replaceAll ['\r', '\n'] ['\n'] rest := by
        rw [replaceAll, if_pos (by simp)]
        rfl
      rw [hpair, hfeed, ih]
  | case3 rest hrest ih =>
      have hlone : replaceAll ['\r', '\n'] ['\n'] ('\r' :: rest) =
          '\r' :: replaceAll ['\r', '\n'] ['\n'] rest := by
        rw [replaceAll, if_neg]
        cases rest with
        | nil => simp
        | cons d more =>
            intro hprefix
            obtain rfl : '\n' = d := by simpa using hprefix
            exact hrest more rfl
      rw [hlone, replaceAll, if_pos (by simp), ih]
      rfl
  | case4 c rest _ hc ih =>
      have hother : ∀ pattern replacement text,
          replaceAll ('\r' :: pattern) replacement (c :: text) =
            c :: replaceAll ('\r' :: pattern) replacement text := by
        intro pattern replacement text
        rw [replaceAll, if_neg]
        intro hprefix
        have hhead := (Bool.and_eq_true_iff.mp hprefix).1
        exact hc (beq_iff_eq.mp hhead).symm
      rw [hother, hother, ih]

end Text

/-! ### Verdicts -/

/-- Texts with the same unified form have the same verdict. -/
lemma analyze_eq_of_unifyEndings (analyzer : Analyzer) {text other : List Char}
    (h : Text.unifyEndings text = Text.unifyEndings other) :
    analyzer.analyze (String.ofList text) = analyzer.analyze (String.ofList other) := by
  simp only [Analyzer.analyze, Analyzer.run, String.toList_ofList, TokenLine.ofSource,
    SourceLine.scan, h]

/-- **Line endings**: however the endings between the lines of a script are spelled, unifying
them leaves the lines joined by LF, and every analyzer comes to the same verdict. Unifying
replaces each CR LF and then each CR by LF, it leaves no CR, and to unify twice is to unify
once. -/
theorem lineEndings_immaterial :
    (∀ lines : List (List Char), lines ≠ [] → Text.Unbroken lines →
      ∀ ending other : Nat → Text.LineEnding,
        Text.Unambiguous ending lines → Text.Unambiguous other lines →
          Text.unifyEndings (Text.joinLines ending lines) = List.intercalate ['\n'] lines ∧
          Text.unifyEndings (Text.joinLines other lines) = List.intercalate ['\n'] lines ∧
          ∀ analyzer : Analyzer,
            analyzer.analyze (String.ofList (Text.joinLines ending lines)) =
              analyzer.analyze (String.ofList (Text.joinLines other lines))) ∧
    ∀ text : List Char,
      Text.unifyEndings text =
          Text.replaceAll ['\r'] ['\n'] (Text.replaceAll ['\r', '\n'] ['\n'] text) ∧
        '\r' ∉ Text.unifyEndings text ∧
          Text.unifyEndings (Text.unifyEndings text) = Text.unifyEndings text := by
  refine ⟨fun lines hne hlines ending other hending hother => ?_, fun text => ?_⟩
  · have hfirst := Text.unifyEndings_joinLines hne hlines hending
    have hsecond := Text.unifyEndings_joinLines hne hlines hother
    exact ⟨hfirst, hsecond, fun analyzer =>
      analyze_eq_of_unifyEndings analyzer (hfirst.trans hsecond.symm)⟩
  · have hreturn := Text.return_not_mem_unifyEndings text
    exact ⟨Text.unifyEndings_eq_replaceAll text, hreturn, Text.unifyEndings_eq_self hreturn⟩

/-- A lone CR and CR LF around an empty line are three characters and two endings. -/
theorem lineEndings_immaterial_mixed :
    Text.Unambiguous (fun index => if index = 0 then .loneReturn else .returnLineFeed)
        ["var a = 1".toList, [], "Print(a)".toList] ∧
      Text.Unambiguous (fun _ => .lineFeed) ["var a = 1".toList, [], "Print(a)".toList] ∧
      Text.joinLines (fun index => if index = 0 then .loneReturn else .returnLineFeed)
        ["var a = 1".toList, [], "Print(a)".toList] = "var a = 1\r\r\nPrint(a)".toList ∧
      ∀ analyzer : Analyzer,
        analyzer.analyze (String.ofList (Text.joinLines
            (fun index => if index = 0 then .loneReturn else .returnLineFeed)
            ["var a = 1".toList, [], "Print(a)".toList])) =
          analyzer.analyze (String.ofList (Text.joinLines (fun _ => .lineFeed)
            ["var a = 1".toList, [], "Print(a)".toList])) := by
  have hmixed : Text.Unambiguous
      (fun index => if index = 0 then .loneReturn else .returnLineFeed)
      ["var a = 1".toList, [], "Print(a)".toList] := fun index _ _ _ => by simp
  have hfeeds : Text.Unambiguous (fun _ => .lineFeed)
      ["var a = 1".toList, [], "Print(a)".toList] := fun _ hending => by cases hending
  have hsame := lineEndings_immaterial.1 ["var a = 1".toList, [], "Print(a)".toList] (by simp)
    (by decide) _ _ hmixed hfeeds
  exact ⟨hmixed, hfeeds, by decide, hsame.2.2⟩

end ScriptLint
