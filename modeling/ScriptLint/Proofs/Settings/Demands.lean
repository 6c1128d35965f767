import ScriptLint.Proofs.Text.Trimming
import ScriptLint.Settings.Basic

/-!
What is demanded of settings.

* `Settings.demands`: the demands one after the other, each with the failure that tells of it.
* `IsFirstFailure`: a failure tells of the first demand that is not met.
* `Settings.violation?_eq_none_iff`, `Settings.violation?_eq_some_iff`: the rule that settings
  break is that of the first demand that they do not meet.
* `Settings.isUsable_weight`, `Settings.isValidIdentifier_extra`: what settings that break no rule
  have.
-/

namespace ScriptLint

/-- A demand, and the failure that tells that it is not met. -/
structure Demand where
  isMet : Prop
  failure : SettingsError

/-- A failure tells of the first demand that is not met. -/
def IsFirstFailure (failure : SettingsError) (demands : List Demand) : Prop :=
  ∃ before demand later, demands = before ++ demand :: later ∧
    (∀ earlier ∈ before, earlier.isMet) ∧ ¬demand.isMet ∧ demand.failure = failure

/-- Numbers are finite and not below zero. -/
def IsUsable (x : Float) : Prop :=
  x.isFinite = true ∧ 0 ≤ x

namespace Settings

variable (settings : Settings)

/-- What is demanded of settings: two usable thresholds, usable weights, extra built-in names that
are identifiers, and markers that are not blank. -/
def demands : List Demand :=
  settings.thresholdEntries.map (fun entry =>
    ⟨IsUsable entry.2, .threshold entry.1 entry.2⟩) ++
  settings.weightEntries.map (fun entry => ⟨IsUsable entry.2, .weight entry.1 entry.2⟩) ++
  settings.extraBuiltins.map (fun name =>
    ⟨Token.isValidIdentifier name.toList = true, .builtin name⟩) ++
  settings.markerEntries.map fun entry =>
    ⟨∃ c ∈ entry.2.toList, Text.isBlank c = false, .emptyMarker entry.1⟩

end Settings

/-! ### The first failure -/

section Failures

variable {α : Type} {demands : List Demand} {failure : SettingsError}

open scoped Classical in
/-- The failures of the demands that are not met, in their order. -/
noncomputable def Demand.failures (demands : List Demand) : List SettingsError :=
  (demands.filter fun demand => ¬demand.isMet).map Demand.failure

lemma Demand.failures_append (first second : List Demand) :
    failures (first ++ second) = failures first ++ failures second := by
  rw [failures, List.filter_append, List.map_append]
  rfl

open scoped Classical in
/-- The failures of demands of one kind, by a check for it. -/
lemma Demand.failures_map {demand : α → Demand} {check : α → Bool}
    (h : ∀ entry, (demand entry).isMet ↔ check entry = true) (entries : List α) :
    failures (entries.map demand) =
      (entries.filter fun entry => !check entry).map fun entry => (demand entry).failure := by
  rw [failures, List.filter_map, List.map_map]
  congr 1
  refine List.filter_congr fun entry _ => ?_
  rw [Function.comp_apply, Bool.eq_iff_iff, decide_eq_true_iff, h, Bool.not_eq_true',
    Bool.not_eq_true]

open scoped Classical in
lemma Demand.head?_failures :
    (failures demands).head? = some failure ↔ IsFirstFailure failure demands := by
  rw [failures, List.head?_map, List.head?_filter, Option.map_eq_some_iff]
  constructor
  · rintro ⟨demand, hfind, hfailure⟩
    obtain ⟨hbroken, before, later, hdemands, hbefore⟩ :=
      List.find?_eq_some_iff_append.mp hfind
    refine ⟨before, demand, later, hdemands, fun earlier hearlier => ?_,
      of_decide_eq_true hbroken, hfailure⟩
    simpa using hbefore earlier hearlier
  · rintro ⟨before, demand, later, hdemands, hbefore, hbroken, hfailure⟩
    refine ⟨demand, List.find?_eq_some_iff_append.mpr ⟨decide_eq_true hbroken, before, later,
      hdemands, fun earlier hearlier => ?_⟩, hfailure⟩
    simpa using hbefore earlier hearlier

end Failures

namespace Settings

variable (settings : Settings)

lemma isUsable_iff (x : Float) : IsUsable x ↔ isUsableNumber x = true := by
  rw [isUsableNumber, Bool.and_eq_true, decide_eq_true_iff, IsUsable]

/-- The rules that settings break are those of the demands that they do not meet. -/
lemma violations_eq : settings.violations = Demand.failures settings.demands := by
  have hmarker (text : String) :
      (∃ c ∈ text.toList, Text.isBlank c = false) ↔ (!(Text.trim text.toList).isEmpty) = true := by
    rw [Bool.not_eq_true', List.isEmpty_eq_false_iff, ne_eq, Text.trim_eq_nil_iff]
    simp
  rw [demands, Demand.failures_append, Demand.failures_append, Demand.failures_append,
    Demand.failures_map (fun entry => isUsable_iff entry.2),
    Demand.failures_map (fun entry => isUsable_iff entry.2),
    Demand.failures_map (fun _ => Iff.rfl), Demand.failures_map fun entry => hmarker entry.2]
  simp only [Bool.not_not]
  rfl

/-- Settings break a rule if they do not meet the demand for it and meet those before it. -/
lemma violation?_eq_some_iff {failure : SettingsError} :
    settings.violation? = some failure ↔ IsFirstFailure failure settings.demands := by
  rw [violation?, violations_eq, Demand.head?_failures]

/-- Settings break no rule if they meet every demand. -/
lemma violation?_eq_none_iff :
    settings.violation? = none ↔ ∀ demand ∈ settings.demands, demand.isMet := by
  rw [violation?, violations_eq, List.head?_eq_none_iff, Demand.failures, List.map_eq_nil_iff,
    List.filter_eq_nil_iff]
  simp

variable {settings} {name : String}

/-- Settings that break no rule have usable weights. -/
lemma isUsable_weight (h : settings.violation? = none) (weight : Weight) :
    IsUsable (settings.weights.value weight) := by
  have hentry : (weight, settings.weights.value weight) ∈ settings.weightEntries :=
    List.mem_map_of_mem (Weight.mem_all weight)
  refine settings.violation?_eq_none_iff.mp h
    ⟨IsUsable (settings.weights.value weight), .weight weight (settings.weights.value weight)⟩ ?_
  rw [demands, List.mem_append, List.mem_append, List.mem_append]
  exact .inl (.inl (.inr (List.mem_map.mpr ⟨_, hentry, rfl⟩)))

/-- Their extra names are identifiers. -/
lemma isValidIdentifier_extra (h : settings.violation? = none)
    (hname : name ∈ settings.extraBuiltins) : Token.isValidIdentifier name.toList = true := by
  refine settings.violation?_eq_none_iff.mp h
    ⟨Token.isValidIdentifier name.toList = true, .builtin name⟩ ?_
  rw [demands, List.mem_append, List.mem_append]
  exact .inl (.inr (List.mem_map_of_mem hname))

end Settings

end ScriptLint
