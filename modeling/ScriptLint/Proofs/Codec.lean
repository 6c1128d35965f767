import Mathlib
import ScriptLint.Codec
import ScriptLint.Field

/-!
What is asked of a notation.

* `RecordReader.Denotes`: a value of a notation stands for what was handed over.
* `RecordReader.Undoes`: a reader takes apart what is made of values (`Undoes.denotes`).
* `Codec.ReadsBack`: what is written is read as a value that stands for it.
* `Datum.IsSound`, `Codec.Composes`: a sound value is read back if its doubles are, one by one.
* `Codec.decode?_write`: what is taken from a text that was written.
* `RecordReader.list?_eq`, `Field.required_eq`, `Field.optional_eq`: the parts of a record.
-/

namespace ScriptLint

/-! ### Values that stand for others -/

namespace RecordReader

mutual

/-- A value of a notation, as its reader takes it apart, stands for what was handed over. -/
def Denotes {V : Type} (reader : RecordReader V) (value : V) : Datum → Prop
  | .bool flag => reader.bool? value = some flag
  | .word n => reader.word? value = some n
  | .float x => reader.float? value = some x
  | .string text => reader.string? value = some text
  | .tag name => reader.tag? value = some name
  | .array items => ∃ values, reader.items? value = some values ∧ reader.DenotesAll values items
  | .record members => ∃ field, reader.fields? (members.map Prod.fst) value = some field ∧
      reader.DenotesFields field members

/-- Values stand for items, one for each. -/
def DenotesAll {V : Type} (reader : RecordReader V) : List V → List Datum → Prop
  | values, [] => values = []
  | [], _ :: _ => False
  | value :: values, item :: items => reader.Denotes value item ∧ reader.DenotesAll values items

/-- Fields that are looked up by their names stand for the members of a record. -/
def DenotesFields {V : Type} (reader : RecordReader V) (field : String → Option V) :
    List (String × Datum) → Prop
  | [] => True
  | (name, datum) :: rest =>
      (∃ value, field name = some value ∧ reader.Denotes value datum) ∧
        reader.DenotesFields field rest

end

section Denotes

variable {V α : Type} {reader : RecordReader V} {value : V} {values : List V}
  {field : String → Option V} {items : List α} {datum : α → Datum} {read? : V → Option α}

lemma mapM_eq_of_denotesAll (h : reader.DenotesAll values (items.map datum))
    (hread : ∀ item ∈ items, ∀ value, reader.Denotes value (datum item) → read? value = some item) :
    values.mapM read? = some items := by
  induction items generalizing values with
  | nil =>
      obtain rfl : values = [] := h
      rfl
  | cons item items ih =>
      cases values with
      | nil => exact h.elim
      | cons value values =>
          obtain ⟨hvalue, hvalues⟩ := h
          rw [List.mapM_cons, hread item List.mem_cons_self value hvalue,
            ih hvalues fun other hother => hread other (List.mem_cons_of_mem _ hother)]
          rfl

/-- An array is read item by item. -/
lemma list?_eq (h : reader.Denotes value (.array (items.map datum)))
    (hread : ∀ item ∈ items, ∀ value, reader.Denotes value (datum item) → read? value = some item) :
    reader.list? read? value = some items := by
  obtain ⟨values, hvalues, hall⟩ := h
  rw [list?, hvalues]
  exact mapM_eq_of_denotesAll hall hread

/-- Strings are read one by one. -/
lemma list?_string {texts : List String} (h : reader.Denotes value (.array (texts.map .string))) :
    reader.list? reader.string? value = some texts :=
  list?_eq h fun _ _ _ htext => htext

/-- The members of a record are looked up one by one. -/
lemma denotesFields_iff {members : List (String × Datum)} :
    reader.DenotesFields field members ↔
      ∀ member ∈ members, ∃ value, field member.1 = some value ∧
        reader.Denotes value member.2 := by
  induction members with
  | nil => simp [DenotesFields]
  | cons member members ih => rw [DenotesFields, ih, List.forall_mem_cons]

end Denotes

end RecordReader

namespace Field

variable {V α : Type} {reader : RecordReader V} {read? : V → Option α} {a otherwise : α}
  {datum : Datum} {field? : Option V}

/-- A field that must be there is read as what it stands for. -/
lemma required_eq (h : ∃ value, field? = some value ∧ reader.Denotes value datum)
    (hread : ∀ value, reader.Denotes value datum → read? value = some a) :
    required read? field? = some a := by
  obtain ⟨value, rfl, hvalue⟩ := h
  exact hread value hvalue

/-- A field that is there is read as what it stands for. -/
lemma optional_eq (h : ∃ value, field? = some value ∧ reader.Denotes value datum)
    (hread : ∀ value, reader.Denotes value datum → read? value = some a) :
    optional read? otherwise field? = some a := by
  obtain ⟨value, rfl, hvalue⟩ := h
  exact hread value hvalue

end Field

/-! ### Sound values -/

namespace Datum

mutual

/-- A value that is nested at most this deep, whose words fit into 64 bits, whose doubles are as
said, and in whose records no two fields have the same name. -/
def IsSound (double : Float → Prop) (depth : ℕ) : Datum → Prop
  | .bool _ => True
  | .word n => n < UInt64.size
  | .float x => double x
  | .string _ => True
  | .tag _ => True
  | .array items => 0 < depth ∧ AllSound double (depth - 1) items
  | .record members => 0 < depth ∧ (members.map Prod.fst).Nodup ∧
      FieldsSound double (depth - 1) members

/-- All items are sound. -/
def AllSound (double : Float → Prop) (depth : ℕ) : List Datum → Prop
  | [] => True
  | item :: items => IsSound double depth item ∧ AllSound double depth items

/-- The values of all members are sound. -/
def FieldsSound (double : Float → Prop) (depth : ℕ) : List (String × Datum) → Prop
  | [] => True
  | (_, datum) :: rest => IsSound double depth datum ∧ FieldsSound double depth rest

end

lemma allSound_iff {double : Float → Prop} {depth : ℕ} {items : List Datum} :
    AllSound double depth items ↔ ∀ item ∈ items, item.IsSound double depth := by
  induction items with
  | nil => simp [AllSound]
  | cons item items ih => rw [AllSound, ih, List.forall_mem_cons]

lemma fieldsSound_iff {double : Float → Prop} {depth : ℕ} {members : List (String × Datum)} :
    FieldsSound double depth members ↔ ∀ member ∈ members, member.2.IsSound double depth := by
  induction members with
  | nil => simp [FieldsSound]
  | cons member members ih => rw [FieldsSound, ih, List.forall_mem_cons]

/-- The depth to which every notation reads values within each other. -/
def nestingLimit : ℕ := 64

end Datum

namespace RecordReader

/-- A reader takes apart what `make` makes of values, as far as their doubles are as said. -/
structure Undoes {V : Type} (reader : RecordReader V) (make : Datum → V)
    (double : Float → Prop) : Prop where
  bool (flag : Bool) : reader.bool? (make (.bool flag)) = some flag
  word {n : ℕ} (h : n < UInt64.size) : reader.word? (make (.word n)) = some n
  float {x : Float} (h : double x) : reader.float? (make (.float x)) = some x
  string (text : String) : reader.string? (make (.string text)) = some text
  tag (name : String) : reader.tag? (make (.tag name)) = some name
  array (items : List Datum) : reader.items? (make (.array items)) = some (items.map make)
  record {members : List (String × Datum)} (hnames : (members.map Prod.fst).Nodup) :
    ∃ field, reader.fields? (members.map Prod.fst) (make (.record members)) = some field ∧
      ∀ member ∈ members, field member.1 = some (make member.2)

namespace Undoes

variable {V : Type} {reader : RecordReader V} {make : Datum → V} {double : Float → Prop}

mutual

/-- What is made of a sound value stands for it. -/
lemma denotes (h : reader.Undoes make double) {depth : ℕ} :
    ∀ {datum : Datum}, datum.IsSound double depth → reader.Denotes (make datum) datum
  | .bool flag, _ => h.bool flag
  | .word _, hsound => h.word hsound
  | .float _, hsound => h.float hsound
  | .string text, _ => h.string text
  | .tag name, _ => h.tag name
  | .array items, hsound => ⟨_, h.array items, h.denotesAll hsound.2⟩
  | .record members, hsound => by
      obtain ⟨field, hfields, hfield⟩ := h.record hsound.2.1
      refine ⟨field, hfields, denotesFields_iff.mpr fun member hmember => ?_⟩
      exact ⟨_, hfield member hmember, h.denotes_of_mem hsound.2.2 member hmember⟩

lemma denotesAll (h : reader.Undoes make double) {depth : ℕ} :
    ∀ {items : List Datum}, Datum.AllSound double depth items →
      reader.DenotesAll (items.map make) items
  | [], _ => rfl
  | _ :: _, hsound => ⟨h.denotes hsound.1, h.denotesAll hsound.2⟩

lemma denotes_of_mem (h : reader.Undoes make double) {depth : ℕ} :
    ∀ {members : List (String × Datum)}, Datum.FieldsSound double depth members →
      ∀ member ∈ members, reader.Denotes (make member.2) member.2
  | [], _ => by simp
  | _ :: _, hsound =>
      List.forall_mem_cons.mpr ⟨h.denotes hsound.1, h.denotes_of_mem hsound.2⟩

end

end Undoes

end RecordReader

/-! ### Reading back -/

namespace Codec

variable {codec : Codec} {datum : Datum}

/-- What a notation writes is read as a value that stands for what was handed over. -/
def ReadsBack (codec : Codec) (datum : Datum) : Prop :=
  ∃ value, codec.parse? (codec.write datum) = some value ∧ codec.reader.Denotes value datum

/-- What is taken from the text of a value that is read back. -/
lemma decode?_write {α : Type} {a : α}
    {read? : RecordReader codec.Value → codec.Value → Option α} (h : codec.ReadsBack datum)
    (hread : ∀ value, codec.reader.Denotes value datum → read? codec.reader value = some a) :
    codec.decode? read? (codec.write datum) = some a := by
  obtain ⟨value, hvalue, hdenotes⟩ := h
  rw [decode?, hvalue]
  exact hread value hdenotes

end Codec

/-- A notation puts values together from their parts: a sound value is read back if each of its
doubles is read back alone. -/
def Codec.Composes (codec : Codec) : Prop :=
  ∀ datum : Datum, datum.IsSound (fun x => codec.ReadsBack (.float x)) Datum.nestingLimit →
    codec.ReadsBack datum

end ScriptLint
