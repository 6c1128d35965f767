import ScriptLint.Proofs.Json.Codec
import ScriptLint.Report.Json

/-!
Reports in JSON are read back.

* `Issue.read?_eq`, `Metrics.read?_eq`, `Verdict.read?_eq`: what is read from a value that stands
  for a record is what the record was made of.
* `Verdict.isSound_datum`: the record of a verdict is sound.
* `Verdict.report_json_faithful`: **faithfulness**, in a notation that puts values together from
  their parts and keeps the metrics a report gives its verdict back, and no two verdicts have the
  same report.
-/

namespace ScriptLint

variable {V : Type} {reader : RecordReader V} {value : V}

/-! ### Issues -/

/-- The severity of a name. -/
lemma Severity.ofName?_display (severity : Severity) :
    ofName? severity.display = some severity := by
  cases severity <;> decide

namespace Issue

/-- The line and the column of an issue fit into 64 bits. -/
def HasWords (issue : Issue) : Prop :=
  issue.place.line < UInt64.size ∧ issue.place.column < UInt64.size

instance (issue : Issue) : Decidable issue.HasWords :=
  inferInstanceAs (Decidable (_ ∧ _))

/-- An issue is read back from its record. -/
lemma read?_eq {issue : Issue} (h : reader.Denotes value issue.datum) :
    read? reader value = some issue := by
  obtain ⟨field, hfields, hline, hcolumn, hmessage, hseverity, hcode, -⟩ := h
  have hseverities := Field.required_eq hseverity fun _ h => h
  have hcodes := Field.required_eq hcode fun _ h => h
  rw [read?]
  refine Option.bind_eq_some_iff.mpr ⟨field, hfields, ?_⟩
  refine Option.bind_eq_some_iff.mpr ⟨_, Field.required_eq hline fun _ h => h, ?_⟩
  refine Option.bind_eq_some_iff.mpr ⟨_, Field.required_eq hcolumn fun _ h => h, ?_⟩
  refine Option.bind_eq_some_iff.mpr ⟨_, Field.required_eq hmessage fun _ h => h, ?_⟩
  rw [hseverities, hcodes]
  refine Option.bind_eq_some_iff.mpr ⟨_, Severity.ofName?_display issue.severity, ?_⟩
  exact Option.bind_eq_some_iff.mpr ⟨_, IssueCode.ofName?_display issue.code, rfl⟩

lemma isSound_datum {double : Float → Prop} {issue : Issue} {depth : ℕ} (h : issue.HasWords) :
    issue.datum.IsSound double (depth + 1) :=
  ⟨depth.succ_pos, show fields.Nodup by decide, h.1, h.2, trivial, trivial, trivial, trivial⟩

end Issue

/-! ### Metrics -/

namespace Metrics

variable {metrics : Metrics Float}

/-- Every metric is finite. -/
def AllFinite (metrics : Metrics Float) : Prop :=
  metrics.complexity.isFinite = true ∧ metrics.time.isFinite = true ∧
    metrics.memory.isFinite = true

instance (metrics : Metrics Float) : Decidable metrics.AllFinite :=
  inferInstanceAs (Decidable (_ ∧ _ ∧ _))

/-- A notation prints each finite metric as a number that it reads back as the metric. -/
def KeptBy (codec : Codec) (metrics : Metrics Float) : Prop :=
  ∀ x ∈ [metrics.complexity, metrics.time, metrics.memory],
    x.isFinite = true → codec.ReadsBack (.float x)

/-- Metrics are read back from their record. -/
lemma read?_eq (h : reader.Denotes value metrics.datum) : read? reader value = some metrics := by
  obtain ⟨field, hfields, hcomplexity, htime, hmemory, -⟩ := h
  rw [read?]
  refine Option.bind_eq_some_iff.mpr ⟨field, hfields, ?_⟩
  refine Option.bind_eq_some_iff.mpr ⟨_, Field.required_eq hcomplexity fun _ h => h, ?_⟩
  refine Option.bind_eq_some_iff.mpr ⟨_, Field.required_eq htime fun _ h => h, ?_⟩
  exact Option.bind_eq_some_iff.mpr ⟨_, Field.required_eq hmemory fun _ h => h, rfl⟩

lemma isSound_datum {codec : Codec} {depth : ℕ} (hfinite : metrics.AllFinite)
    (hkept : metrics.KeptBy codec) :
    metrics.datum.IsSound (fun x => codec.ReadsBack (.float x)) (depth + 1) := by
  simp only [KeptBy, List.forall_mem_cons, List.not_mem_nil, false_implies, implies_true,
    and_true] at hkept
  exact ⟨depth.succ_pos, show fields.Nodup by decide, hkept.1 hfinite.1, hkept.2.1 hfinite.2.1,
    hkept.2.2 hfinite.2.2, trivial⟩

end Metrics

/-! ### Verdicts -/

namespace Verdict

variable {v w : Verdict} {json : Codec}

/-- The lines and the columns of a verdict fit into 64 bits. -/
def HasWords (verdict : Verdict) : Prop :=
  ∀ issue ∈ verdict.issues, issue.HasWords

instance (verdict : Verdict) : Decidable verdict.HasWords :=
  inferInstanceAs (Decidable (∀ issue ∈ verdict.issues, issue.HasWords))

/-- A verdict is read back from its record. -/
lemma read?_eq (h : reader.Denotes value v.datum) : read? reader value = some v := by
  obtain ⟨field, hfields, hvalid, herrors, hwarnings, hsuggestions, hperformance, -⟩ := h
  have hissues {issues : List Issue} (value : V)
      (h : reader.Denotes value (.array (issues.map Issue.datum))) :
      reader.list? (Issue.read? reader) value = some issues :=
    RecordReader.list?_eq h fun _ _ _ => Issue.read?_eq
  rw [read?]
  refine Option.bind_eq_some_iff.mpr ⟨field, hfields, ?_⟩
  refine Option.bind_eq_some_iff.mpr ⟨_, Field.required_eq hvalid fun _ h => h, ?_⟩
  refine Option.bind_eq_some_iff.mpr ⟨_, Field.required_eq herrors hissues, ?_⟩
  refine Option.bind_eq_some_iff.mpr ⟨_, Field.required_eq hwarnings hissues, ?_⟩
  refine Option.bind_eq_some_iff.mpr
    ⟨_, Field.required_eq hsuggestions fun _ => RecordReader.list?_string, ?_⟩
  exact Option.bind_eq_some_iff.mpr
    ⟨_, Field.required_eq hperformance fun _ => Metrics.read?_eq, rfl⟩

/-- The record of a verdict is sound. -/
lemma isSound_datum (hwords : v.HasWords) (hfinite : v.performance.AllFinite)
    (hkept : v.performance.KeptBy json) :
    v.datum.IsSound (fun x => json.ReadsBack (.float x)) Datum.nestingLimit := by
  have hissues : ∀ issues : List Issue, (∀ issue ∈ issues, issue.HasWords) →
      Datum.AllSound (fun x => json.ReadsBack (.float x)) 62 (issues.map Issue.datum) :=
    fun issues h => Datum.allSound_iff.mpr <| List.forall_mem_map.mpr fun issue hissue =>
      Issue.isSound_datum (h issue hissue)
  have hsuggestions : Datum.AllSound (fun x => json.ReadsBack (.float x)) 62
      (v.suggestions.map .string) :=
    Datum.allSound_iff.mpr <| List.forall_mem_map.mpr fun _ _ => trivial
  exact ⟨by decide, show fields.Nodup by decide, trivial,
    ⟨by decide, hissues _ fun issue hissue => hwords issue (List.mem_append_left _ hissue)⟩,
    ⟨by decide, hissues _ fun issue hissue => hwords issue (List.mem_append_right _ hissue)⟩,
    ⟨by decide, hsuggestions⟩, Metrics.isSound_datum hfinite hkept, trivial⟩

/-- A report in JSON gives its verdict back. -/
lemma decode?_report (hjson : json.Composes) (hwords : v.HasWords)
    (hfinite : v.performance.AllFinite) (hkept : v.performance.KeptBy json) (name : String) :
    json.decode? read? (v.reportIn json name .json) = some v :=
  Codec.decode?_write (hjson v.datum (isSound_datum hwords hfinite hkept)) fun _ => read?_eq

/-- **Faithfulness**: in a notation that puts values together from their parts, a report gives its
verdict back if its metrics are finite and the notation keeps them; and no two such verdicts have
the same report. -/
theorem report_json_faithful (json : Codec) (hjson : json.Composes) :
    (∀ (v : Verdict) (name : String), v.HasWords → v.performance.AllFinite →
      v.performance.KeptBy json → json.decode? read? (v.reportIn json name .json) = some v) ∧
    ∀ (v w : Verdict) (name name' : String), v.HasWords → w.HasWords →
      v.performance.AllFinite → w.performance.AllFinite →
      v.performance.KeptBy json → w.performance.KeptBy json →
      v.reportIn json name .json = w.reportIn json name' .json → v = w := by
  refine ⟨fun v name hwords hfinite hkept => decode?_report hjson hwords hfinite hkept name, ?_⟩
  intro v w name name' hwords hwords' hfinite hfinite' hkept hkept' hsame
  have hread := decode?_report hjson hwords hfinite hkept name
  rw [hsame, decode?_report hjson hwords' hfinite' hkept' name'] at hread
  exact (Option.some.inj hread).symm

/-- A verdict with an issue whose message needs escapes. -/
def sample : Verdict where
  isValid := false
  errors := [⟨⟨18446744073709551615, 3⟩, "a \"b\" \\ \t\u0001 é", .error, .invalidCharacter⟩]
  warnings := []
  suggestions := ["", "two\nlines"]
  performance := ⟨12.5, 0.1, -1e300⟩

/-- JSON keeps its metrics, so it is read back, and its report is not the one of a verdict without
suggestions. -/
theorem report_sample :
    Json.codec.Composes ∧ sample.performance.KeptBy Json.codec ∧
      ofText? (sample.report "a.ds" .json) = some sample ∧
      sample.report "a.ds" .json ≠ { sample with suggestions := [] }.report "a.ds" .json := by
  have hwords : sample.HasWords := by decide
  have hfinite : sample.performance.AllFinite := by decide +kernel
  have hkept : sample.performance.KeptBy Json.codec := fun x hx _ =>
    Json.readsBack_float_iff.mpr <| by
      have hnumbers : ∀ x ∈ [sample.performance.complexity, sample.performance.time,
          sample.performance.memory], (Json.ofFloat x).toFloat? = some x := by decide +kernel
      exact hnumbers x hx
  have hjson := report_json_faithful Json.codec Json.composes_codec
  refine ⟨Json.composes_codec, hkept, hjson.1 sample "a.ds" hwords hfinite hkept, fun h => ?_⟩
  have hsame := hjson.2 sample { sample with suggestions := [] } "a.ds" "a.ds" hwords hwords hfinite
    hfinite hkept hkept h
  exact absurd (congrArg suggestions hsame) (by decide)

end Verdict

end ScriptLint
