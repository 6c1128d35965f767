import ScriptLint.Json.Codec
import ScriptLint.Proofs.Codec
import ScriptLint.Proofs.Json.Values

/-!
JSON as a notation of records.

* `Json.isPlain_ofDatum`: what is handed over is written by the rules.
* `Json.readsBack_float_iff`: a double is read back if its number is read as the double.
* `Json.undoes_ofDatum`, `Json.composes_codec`: sound values are read back if their doubles are.
-/

namespace ScriptLint.Json

/-! ### Numbers -/

/-- A finite double has an exact value. -/
lemma exists_exact {x : Float} (h : x.isFinite = true) :
    ∃ negative m e, Decimal.Exact.ofFloat x = .finite negative m e := by
  have hexact := Decimal.isExact_ofFloat x
  have hfinite : x.toModel.unpack.isFinite = true := h
  generalize Decimal.Exact.ofFloat x = exact at hexact
  generalize x.toModel.unpack = parts at hexact hfinite
  cases hexact with
  | nan => cases hfinite
  | infinite => cases hfinite
  | zero => exact ⟨_, _, _, rfl⟩
  | finite => exact ⟨_, _, _, rfl⟩

lemma isFinite_of_exact {x : Float} {negative : Bool} {m : ℕ} {e : ℤ}
    (h : Decimal.Exact.ofFloat x = .finite negative m e) : x.isFinite = true := by
  have hexact := Decimal.isExact_ofFloat x
  have hparts : x.isFinite = x.toModel.unpack.isFinite := rfl
  rw [h] at hexact
  rw [hparts]
  generalize x.toModel.unpack = parts at hexact
  cases hexact <;> rfl

/-- The number of a double is written by the rules. -/
lemma isPlain_ofFloat (x : Float) : IsPlain (ofFloat x) := by
  rw [ofFloat]
  split
  · rename_i hexact
    exact .number (Number.isJson_ofDigits _ (Decimal.shortest_pos_or .toEven hexact))
  · exact .null

/-! ### Writing -/

mutual

/-- What is handed over is written by the rules. -/
lemma isPlain_ofDatum : ∀ datum : Datum, IsPlain (ofDatum datum)
  | .bool value => .bool value
  | .word value => .number (Number.isJson_ofNat value)
  | .float x => isPlain_ofFloat x
  | .string text => .string text
  | .tag name => .string name
  | .array items => .array (isPlain_ofItems items)
  | .record members => .object (isPlain_ofFields members)

lemma isPlain_ofItems : ∀ items : List Datum, ∀ item ∈ ofItems items, IsPlain item
  | [] => by simp [ofItems]
  | item :: items => List.forall_mem_cons.mpr ⟨isPlain_ofDatum item, isPlain_ofItems items⟩

lemma isPlain_ofFields :
    ∀ members : List (String × Datum), ∀ member ∈ ofFields members, IsPlain member.2
  | [] => by simp [ofFields]
  | (_, datum) :: members =>
      List.forall_mem_cons.mpr ⟨isPlain_ofDatum datum, isPlain_ofFields members⟩

end

/-- What is handed over is read as the value that was made for it. -/
lemma parse?_write (datum : Datum) : codec.parse? (codec.write datum) = some (ofDatum datum) :=
  parse?_pretty (isPlain_ofDatum datum)

lemma readsBack_iff {datum : Datum} :
    codec.ReadsBack datum ↔ recordReader.Denotes (ofDatum datum) datum := by
  constructor
  · rintro ⟨value, hvalue, hdenotes⟩
    obtain rfl := Option.some.inj ((parse?_write datum).symm.trans hvalue)
    exact hdenotes
  · exact fun h => ⟨ofDatum datum, parse?_write datum, h⟩

/-- A double is read back if its number is read as the double. -/
lemma readsBack_float_iff {x : Float} :
    codec.ReadsBack (.float x) ↔ (ofFloat x).toFloat? = some x :=
  readsBack_iff

/-! ### Reading -/

section Fields

variable {members : List (String × Datum)}

lemma map_fst_ofFields (members : List (String × Datum)) :
    (ofFields members).map Prod.fst = members.map Prod.fst := by
  induction members with
  | nil => rfl
  | cons member members ih => exact congrArg (member.1 :: ·) ih

/-- A member of another name is not found. -/
lemma valuesOf_eq_nil {name : String} {members : List (String × Json)}
    (h : name ∉ members.map Prod.fst) : valuesOf members name = [] := by
  rw [valuesOf, List.map_eq_nil_iff, List.filter_eq_nil_iff]
  rintro member hmember hname
  exact h (List.mem_map.mpr ⟨member, hmember, eq_of_beq hname⟩)

/-- Where no two members have the same name, each is found by its name. -/
lemma valuesOf_ofFields (hnames : (members.map Prod.fst).Nodup) :
    ∀ member ∈ members, valuesOf (ofFields members) member.1 = [ofDatum member.2] := by
  induction members with
  | nil => simp
  | cons first members ih =>
      rw [List.map_cons, List.nodup_cons] at hnames
      rw [List.forall_mem_cons]
      constructor
      · have hrest := valuesOf_eq_nil ((map_fst_ofFields members).symm ▸ hnames.1)
        simpa [ofFields, valuesOf] using hrest
      · intro member hmember
        have hne : first.1 ≠ member.1 := fun heq =>
          hnames.1 (heq ▸ List.mem_map_of_mem hmember)
        have hrest := ih hnames.2 member hmember
        simpa [ofFields, valuesOf, hne] using hrest

/-- Every field of a record is found by its name. -/
lemma fields?_ofFields (hnames : (members.map Prod.fst).Nodup) :
    fields? (members.map Prod.fst) (object (ofFields members)) =
      some fun name => (valuesOf (ofFields members) name).head? := by
  rw [fields?, if_pos]
  rw [List.all_eq_true, List.forall_mem_map]
  intro member hmember
  rw [valuesOf_ofFields hnames member hmember]
  rfl

end Fields

lemma ofItems_eq_map (items : List Datum) : ofItems items = items.map ofDatum := by
  induction items with
  | nil => rfl
  | cons item items ih => exact congrArg (ofDatum item :: ·) ih

/-- Values are taken apart as they were made, if their doubles are read back. -/
lemma undoes_ofDatum :
    recordReader.Undoes ofDatum fun x => codec.ReadsBack (.float x) where
  bool _ := rfl
  word h := Number.toWord?_ofNat h
  float h := readsBack_float_iff.mp h
  string _ := rfl
  tag _ := rfl
  array items := congrArg some (ofItems_eq_map items)
  record hnames := by
    refine ⟨_, fields?_ofFields hnames, fun member hmember => ?_⟩
    rw [valuesOf_ofFields hnames member hmember]
    rfl

/-- **JSON** puts values together from their parts. -/
theorem composes_codec : codec.Composes :=
  fun _ h => readsBack_iff.mpr (undoes_ofDatum.denotes h)

end ScriptLint.Json
