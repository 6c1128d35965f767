import ScriptLint.Proofs.Json.Scalars

/-!
JSON values read back.

* `IsPlain`: a value whose numbers are written by the rules and whose strings are texts.
* `ReadsBack`, `readsBack`: such a value is read from its text, behind blanks, and what follows it
  is left.
* `parse?_pretty`: it is read back from its whole text.
-/

namespace ScriptLint.Json

/-- A value whose numbers are written by the rules and whose strings are texts. -/
inductive IsPlain : Json → Prop
  | null : IsPlain .null
  | bool (value : Bool) : IsPlain (.bool value)
  | number {value : Number} (h : value.IsJson) : IsPlain (.number value)
  | string (value : String) : IsPlain (.string value)
  | array {items : List Json} (h : ∀ item ∈ items, IsPlain item) : IsPlain (.array items)
  | object {members : List (String × Json)} (h : ∀ entry ∈ members, IsPlain entry.2) :
      IsPlain (.object members)

/-! ### Blanks -/

section Blanks

variable {bound depth : ℕ} {c : Char} {blanks rest text : List Char}

lemma skipBlanks_cons (h : isJsonBlank c = false) : skipBlanks (c :: rest) = c :: rest := by
  rw [skipBlanks, List.dropWhile_cons, h]
  rfl

lemma skipBlanks_append (h : ∀ c ∈ blanks, isJsonBlank c = true) (text : List Char) :
    skipBlanks (blanks ++ text) = skipBlanks text :=
  List.dropWhile_append_of_pos h

lemma isJsonBlank_of_mem_newLine (h : c ∈ newLine depth) : isJsonBlank c = true := by
  rcases List.mem_cons.mp h with rfl | h
  · rfl
  · rw [List.eq_of_mem_replicate h]
    rfl

lemma skipBlanks_newLine (depth : ℕ) (text : List Char) :
    skipBlanks (newLine depth ++ text) = skipBlanks text :=
  skipBlanks_append (fun _ h => isJsonBlank_of_mem_newLine h) text

/-- A value may stand behind blanks. -/
lemma readValue_newLine (bound depth : ℕ) (text : List Char) :
    readValue bound (newLine depth ++ text) = readValue bound text := by
  cases bound with
  | zero => rfl
  | succ bound => rw [readValue, readValue, skipBlanks_newLine]

/-- A number ends before a new line. -/
lemma endsBefore_newLine (depth : ℕ) (text : List Char) :
    Number.EndsBefore (newLine depth ++ text) := by
  intro c hc
  obtain rfl : '\n' = c := Option.some.inj hc
  decide

end Blanks

/-! ### Scalars -/

section Scalars

variable {bound depth : ℕ} {rest : List Char}

/-- The first character of a number. -/
lemma Number.exists_head {number : Number} (h : number.IsJson) (rest : List Char) :
    ∃ c more, number.text ++ rest = c :: more ∧ (c = '-' ∨ c.isDigit = true) := by
  rw [Number.text]
  cases number.negative with
  | true => exact ⟨'-', _, rfl, .inl rfl⟩
  | false =>
      obtain ⟨first, more, hfirst⟩ := List.exists_cons_of_ne_nil h.ne_nil
      have hdigit := h.isDigit first
        (List.mem_append_left _ (by rw [hfirst]; exact List.mem_cons_self))
      rw [Decimal.pointed, hfirst]
      split_ifs
      · exact ⟨first, _, rfl, .inr hdigit⟩
      · exact ⟨first, _, rfl, .inr hdigit⟩

/-- No number starts like another value. -/
lemma ne_of_number {c : Char} (h : c = '-' ∨ c.isDigit = true) :
    isJsonBlank c = false ∧ c ≠ ']' ∧ c ≠ '[' ∧ c ≠ '\x7b' ∧ c ≠ '"' ∧ c ≠ 'n' ∧ c ≠ 't' ∧
      c ≠ 'f' := by
  rcases h with rfl | h
  · decide
  · refine ⟨?_, ?_, ?_, ?_, ?_, ?_, ?_, ?_⟩
    · by_contra hblank
      rw [Bool.not_eq_false, isJsonBlank] at hblank
      simp only [Bool.or_eq_true, beq_iff_eq] at hblank
      rcases hblank with ((rfl | rfl) | rfl) | rfl <;> cases h
    all_goals
      rintro rfl
      cases h

lemma readValue_number {value : Number} (h : value.IsJson) (hrest : Number.EndsBefore rest) :
    readValue (bound + 1) (value.text ++ rest) = some (number value, rest) := by
  have hread := Number.readNumber_text h hrest
  obtain ⟨c, more, htext, hc⟩ := Number.exists_head h rest
  obtain ⟨hblank, -, hbracket, hbrace, hquote, hn, ht, hf⟩ := ne_of_number hc
  rw [htext] at hread ⊢
  rw [readValue, skipBlanks_cons hblank]
  split
  · exact absurd (List.cons.inj ‹_›).1 hbracket
  · exact absurd (List.cons.inj ‹_›).1 hbrace
  · exact absurd (List.cons.inj ‹_›).1 hquote
  · exact absurd (List.cons.inj ‹_›).1 hn
  · exact absurd (List.cons.inj ‹_›).1 ht
  · exact absurd (List.cons.inj ‹_›).1 hf
  · rw [hread]
    rfl

lemma readValue_string (value : String) :
    readValue (bound + 1) (quote value ++ rest) = some (string value, rest) := by
  have hquote : quote value ++ rest = '"' :: (escape value.toList ++ '"' :: rest) := by
    simp [quote]
  rw [hquote, readValue, skipBlanks_cons rfl]
  simp only [readString_escape, Option.bind_eq_bind, Option.bind_some, Option.elim_some]

lemma readValue_word {word : List Char} {value : Json}
    (hword : (word, value) ∈ [("null".toList, null), ("true".toList, bool true),
      ("false".toList, bool false)]) :
    readValue (bound + 1) (word ++ rest) = some (value, rest) := by
  simp only [List.mem_cons, List.not_mem_nil, or_false, Prod.mk.injEq] at hword
  rcases hword with ⟨rfl, rfl⟩ | ⟨rfl, rfl⟩ | ⟨rfl, rfl⟩ <;>
    simp [readValue, skipBlanks, isJsonBlank, afterWord?]

end Scalars

/-! ### Arrays and objects -/

section Lists

variable {bound depth outer : ℕ} {rest : List Char}

/-- A value is read from its text, and what follows it is left. -/
def ReadsBack (json : Json) : Prop :=
  ∀ (bound depth : ℕ) (rest : List Char), (prettyFrom depth json).length < bound →
    Number.EndsBefore rest → readValue bound (prettyFrom depth json ++ rest) = some (json, rest)

/-- The first character of a value is no blank, and does not close an array. -/
lemma exists_head {json : Json} (h : IsPlain json) (depth : ℕ) (rest : List Char) :
    ∃ c more, prettyFrom depth json ++ rest = c :: more ∧ isJsonBlank c = false ∧ c ≠ ']' := by
  cases h with
  | null => exact ⟨'n', _, rfl, rfl, by decide⟩
  | bool value =>
      cases value with
      | true => exact ⟨'t', _, rfl, rfl, by decide⟩
      | false => exact ⟨'f', _, rfl, rfl, by decide⟩
  | number hvalue =>
      obtain ⟨c, more, htext, hc⟩ := Number.exists_head hvalue rest
      exact ⟨c, more, htext, (ne_of_number hc).1, (ne_of_number hc).2.1⟩
  | string value => exact ⟨'"', _, rfl, rfl, by decide⟩
  | @array items =>
      cases items with
      | nil => exact ⟨'[', _, rfl, rfl, by decide⟩
      | cons item more => exact ⟨'[', _, rfl, rfl, by decide⟩
  | @object members =>
      cases members with
      | nil => exact ⟨'\x7b', _, rfl, rfl, by decide⟩
      | cons entry more => exact ⟨'\x7b', _, rfl, rfl, by decide⟩

lemma length_prettyFrom_pos {json : Json} (h : IsPlain json) (depth : ℕ) :
    0 < (prettyFrom depth json).length := by
  obtain ⟨c, more, htext, -⟩ := exists_head h depth []
  rw [List.append_nil] at htext
  rw [htext]
  exact Nat.succ_pos _

/-- The items of an array. -/
lemma readItems_pretty {item : Json} {more : List Json}
    (hplain : ∀ i ∈ item :: more, IsPlain i) (hreads : ∀ i ∈ item :: more, ReadsBack i)
    (hbound : (prettyFrom depth item).length + (prettyItems depth more).length + 1 < bound) :
    readItems bound (newLine depth ++ (prettyFrom depth item ++ (prettyItems depth more ++
      (newLine outer ++ ']' :: rest)))) = some (item :: more, rest) := by
  induction more generalizing item bound with
  | nil =>
      obtain ⟨bound, rfl⟩ := Nat.exists_eq_add_of_le' (by omega : 1 ≤ bound)
      have hread := hreads item List.mem_cons_self bound depth _ (by omega)
        (endsBefore_newLine outer (']' :: rest))
      rw [readItems, readValue_newLine, prettyItems, List.nil_append, hread]
      simp only [Option.bind_eq_bind, Option.bind_some, skipBlanks_newLine,
        skipBlanks_cons (c := ']') rfl]
  | cons next more ih =>
      obtain ⟨bound, rfl⟩ := Nat.exists_eq_add_of_le' (by omega : 1 ≤ bound)
      have hlength : (prettyItems depth (next :: more)).length =
          1 + (newLine depth).length + (prettyFrom depth next).length +
            (prettyItems depth more).length := by
        rw [prettyItems]
        simp only [List.length_cons, List.length_append]
        omega
      have hpos := length_prettyFrom_pos (hplain item List.mem_cons_self) depth
      have hread := hreads item List.mem_cons_self bound depth
        (prettyItems depth (next :: more) ++ (newLine outer ++ ']' :: rest)) (by omega) (by
          intro c hc
          obtain rfl : ',' = c := Option.some.inj hc
          decide)
      have hmore := @ih bound next (fun i hi => hplain i (List.mem_cons_of_mem _ hi))
        (fun i hi => hreads i (List.mem_cons_of_mem _ hi)) (by omega)
      rw [readItems, readValue_newLine, hread]
      simp only [Option.bind_eq_bind, Option.bind_some, prettyItems, List.cons_append,
        List.append_assoc, skipBlanks_cons (c := ',') rfl, hmore]

/-- A name in quotes and the blank before its value. -/
lemma quote_colon (name : String) (text : List Char) :
    quote name ++ ':' :: ' ' :: text =
      '"' :: (escape name.toList ++ '"' :: ':' :: ' ' :: text) := by
  simp [quote]

lemma readValue_space (bound : ℕ) (text : List Char) :
    readValue bound (' ' :: text) = readValue bound text := by
  cases bound with
  | zero => rfl
  | succ bound =>
      have hskip : skipBlanks (' ' :: text) = skipBlanks text := rfl
      rw [readValue, readValue, hskip]

/-- The last member of an object. -/
lemma readMembers_last {name : String} {value : Json} {text behind : List Char}
    (hvalue : readValue bound text = some (value, behind))
    (hbehind : skipBlanks behind = '\x7d' :: rest) :
    readMembers (bound + 1) (newLine depth ++ (quote name ++ ':' :: ' ' :: text)) =
      some ([(some name, value)], rest) := by
  rw [readMembers, skipBlanks_newLine, quote_colon, skipBlanks_cons rfl]
  simp only [readString_escape, Option.bind_eq_bind, Option.bind_some,
    skipBlanks_cons (c := ':') rfl, readValue_space, hvalue, hbehind]

/-- A member of an object before others. -/
lemma readMembers_next {name : String} {value : Json} {text behind tail : List Char}
    {members : List (Option String × Json)}
    (hvalue : readValue bound text = some (value, behind))
    (hbehind : skipBlanks behind = ',' :: tail)
    (hmembers : readMembers bound tail = some (members, rest)) :
    readMembers (bound + 1) (newLine depth ++ (quote name ++ ':' :: ' ' :: text)) =
      some ((some name, value) :: members, rest) := by
  rw [readMembers, skipBlanks_newLine, quote_colon, skipBlanks_cons rfl]
  simp only [readString_escape, Option.bind_eq_bind, Option.bind_some,
    skipBlanks_cons (c := ':') rfl, readValue_space, hvalue, hbehind, hmembers]

/-- The members of an object. -/
lemma readMembers_pretty {name : String} {value : Json} {more : List (String × Json)}
    (hplain : ∀ entry ∈ (name, value) :: more, IsPlain entry.2)
    (hreads : ∀ entry ∈ (name, value) :: more, ReadsBack entry.2)
    (hbound : (prettyFrom depth value).length + (prettyMembers depth more).length + 1 < bound) :
    readMembers bound (newLine depth ++ (quote name ++ ':' :: ' ' :: (prettyFrom depth value ++
      (prettyMembers depth more ++ (newLine outer ++ '\x7d' :: rest))))) =
        some (((name, value) :: more).map fun entry => (some entry.1, entry.2), rest) := by
  induction more generalizing name value bound with
  | nil =>
      obtain ⟨bound, rfl⟩ := Nat.exists_eq_add_of_le' (by omega : 1 ≤ bound)
      have hread := hreads _ List.mem_cons_self bound depth _ (by dsimp only; omega)
        (endsBefore_newLine outer ('\x7d' :: rest))
      exact readMembers_last hread (skipBlanks_newLine outer _)
  | cons next more ih =>
      obtain ⟨bound, rfl⟩ := Nat.exists_eq_add_of_le' (by omega : 1 ≤ bound)
      obtain ⟨nextName, nextValue⟩ := next
      have hlength : (prettyMembers depth ((nextName, nextValue) :: more)).length =
          3 + (newLine depth).length + (quote nextName).length +
            (prettyFrom depth nextValue).length + (prettyMembers depth more).length := by
        rw [prettyMembers]
        simp only [List.length_cons, List.length_append]
        omega
      have hread := hreads _ List.mem_cons_self bound depth
        (prettyMembers depth ((nextName, nextValue) :: more) ++ (newLine outer ++ '\x7d' :: rest))
        (by dsimp only; omega) (by
          intro c hc
          obtain rfl : ',' = c := Option.some.inj hc
          decide)
      have hmore := @ih bound nextName nextValue
        (fun i hi => hplain i (List.mem_cons_of_mem _ hi))
        (fun i hi => hreads i (List.mem_cons_of_mem _ hi)) (by omega)
      refine readMembers_next hread ?_ hmore
      simp only [prettyMembers, List.cons_append, List.append_assoc, skipBlanks_cons (c := ',') rfl]

/-- An object is made of its members. -/
lemma ofMembers_some (members : List (String × Json)) :
    ofMembers (members.map fun entry => (some entry.1, entry.2)) = object members := by
  rw [ofMembers, Text.mapM_map_eq_some]
  exact fun entry _ => rfl

/-- An array with items. -/
lemma readValue_array {c : Char} {inner tail : List Char} {items : List Json}
    (hopen : skipBlanks inner = c :: tail) (hc : c ≠ ']')
    (hitems : readItems bound inner = some (items, rest)) :
    readValue (bound + 1) ('[' :: inner) = some (array items, rest) := by
  rw [readValue, skipBlanks_cons rfl]
  simp only [hopen]
  split
  · exact absurd (List.cons.inj ‹_›).1 hc
  · rw [hitems]
    rfl

/-- An object with members. -/
lemma readValue_object {c : Char} {inner tail : List Char} {members : List (String × Json)}
    (hopen : skipBlanks inner = c :: tail) (hc : c ≠ '\x7d')
    (hmembers : readMembers bound inner =
      some (members.map fun entry => (some entry.1, entry.2), rest)) :
    readValue (bound + 1) ('\x7b' :: inner) = some (object members, rest) := by
  rw [readValue, skipBlanks_cons rfl]
  simp only [hopen]
  split
  · exact absurd (List.cons.inj ‹_›).1 hc
  · rw [hmembers]
    simp only [Option.bind_eq_bind, Option.bind_some, ofMembers_some]

end Lists

/-! ### Values -/

/-- **Values** are read back from their text. -/
theorem readsBack {json : Json} (h : IsPlain json) : ReadsBack json := by
  intro bound depth rest hbound hrest
  obtain ⟨bound, rfl⟩ := Nat.exists_eq_add_of_le' (by omega : 1 ≤ bound)
  induction h generalizing bound depth rest with
  | null => exact readValue_word (.head _)
  | bool value =>
      cases value with
      | true => exact readValue_word (.tail _ (.head _))
      | false => exact readValue_word (.tail _ (.tail _ (.head _)))
  | number hvalue => exact readValue_number hvalue hrest
  | string value => exact readValue_string value
  | @array items hplain ih =>
      have hreads : ∀ item ∈ items, ReadsBack item := by
        intro item hitem bound depth rest hbound hrest
        obtain ⟨bound, rfl⟩ := Nat.exists_eq_add_of_le' (by omega : 1 ≤ bound)
        exact ih item hitem depth rest hrest bound hbound
      cases items with
      | nil => rfl
      | cons item more =>
          obtain ⟨c, tail, htail, hblank, hc⟩ := exists_head (hplain item List.mem_cons_self)
            (depth + 1) (prettyItems (depth + 1) more ++ (newLine depth ++ ']' :: rest))
          rw [prettyFrom] at hbound ⊢
          simp only [List.length_append, List.length_cons, List.length_nil] at hbound
          have hitems := @readItems_pretty bound (depth + 1) depth rest item more hplain hreads
            (by omega)
          simp only [List.cons_append, List.append_assoc, List.nil_append]
          refine @readValue_array _ _ c _ tail _ ?_ hc hitems
          rw [skipBlanks_newLine, htail, skipBlanks_cons hblank]
  | @object members hplain ih =>
      have hreads : ∀ entry ∈ members, ReadsBack entry.2 := by
        intro entry hentry bound depth rest hbound hrest
        obtain ⟨bound, rfl⟩ := Nat.exists_eq_add_of_le' (by omega : 1 ≤ bound)
        exact ih entry hentry depth rest hrest bound hbound
      cases members with
      | nil => rfl
      | cons entry more =>
          obtain ⟨name, value⟩ := entry
          rw [prettyFrom] at hbound ⊢
          simp only [List.length_append, List.length_cons, List.length_nil] at hbound
          have hmembers := @readMembers_pretty bound (depth + 1) depth rest name value more hplain
            hreads (by omega)
          simp only [List.cons_append, List.append_assoc, List.nil_append]
          have hopen : ∀ text,
              skipBlanks (newLine (depth + 1) ++ (quote name ++ ':' :: ' ' :: text)) =
                '"' :: (escape name.toList ++ '"' :: ':' :: ' ' :: text) := by
            intro text
            rw [skipBlanks_newLine, quote_colon, skipBlanks_cons rfl]
          exact readValue_object (hopen _) (by decide) hmembers

/-- **Reading back**: a value is what its whole text is read as. -/
theorem parse?_pretty {json : Json} (h : IsPlain json) : parse? json.pretty = some json := by
  have hread := readsBack h (json.pretty.length + 1) 0 []
  rw [pretty, String.length_ofList] at hread
  rw [parse?, pretty, String.toList_ofList, String.length_ofList]
  rw [List.append_nil] at hread
  rw [hread (Nat.lt_succ_self _) (fun c hc => by cases hc)]
  rfl

end ScriptLint.Json
