import ScriptLint.Proofs.Command.Reading

/-!
The outcome of a check.

* `Verdict.Passes`: a verdict passes.
* `Prints`: what is printed on scripts, the texts of their reports one behind the other or one
  array of their records (`prints_iff`).
* `Ends`: what the check of scripts prints, its exit code, and its failure if it fails.
* `check_all_or_nothing`: a check ends so. It prints nothing unless every script has been read.
-/

namespace ScriptLint

variable {toml json : Codec} {surroundings : Surroundings} {config? : Option String}
  {files : List String} {format? : Option ReportFormat} {deny : Bool}

/-- A verdict passes: it is valid, and has no warnings where they are denied. -/
def Verdict.Passes (denied : Prop) (verdict : Verdict) : Prop :=
  verdict.isValid = true ∧ (denied → verdict.warnings = [])

/-- Warnings are denied by the command or by the preferences. -/
def Preferences.Denies (preferences : Preferences) (deny : Bool) : Prop :=
  deny = true ∨ preferences.output.denyWarnings = true

/-- The failure of a command, if it fails. -/
def Ending.failure? : Ending → Option RunError
  | passed | rejected => none
  | failed error => some error

/-- What is seen of a command: its output, its exit code and its failure. -/
def Outcome.seen (outcome : Outcome) : String × ℕ × Option RunError :=
  (outcome.output, outcome.ending.exitCode, outcome.ending.failure?)

/-- The texts of the reports on scripts, one for each path and its text. The standard input has a
name of its own. -/
def Analyzer.reportTexts (analyzer : Analyzer) (files texts : List String) : List String :=
  List.zipWith (fun path text =>
    (analyzer.analyze text).text (if isStandardInput path then "<stdin>" else path)) files texts

/-- The records of the reports on scripts, one for each path and its text. -/
def Analyzer.reportRecords (analyzer : Analyzer) (files texts : List String) : List Datum :=
  List.zipWith (fun path text => .record
    [("file", .string (if isStandardInput path then "<stdin>" else path)),
      ("verdict", (analyzer.analyze text).datum)]) files texts

/-- What is printed on scripts in a format. The texts of the reports follow one another; in JSON
one array holds their records, and a line ending is added if none stands behind it. -/
inductive Prints (json : Codec) (analyzer : Analyzer) (files texts : List String) :
    ReportFormat → String → Prop where
  | text (h : files ≠ []) :
      Prints json analyzer files texts .text (String.join (analyzer.reportTexts files texts))
  | nothing (h : files = []) : Prints json analyzer files texts .text "\n"
  | ended {start : String}
      (h : json.write (.array (analyzer.reportRecords files texts)) = start ++ "\n") :
      Prints json analyzer files texts .json (start ++ "\n")
  | unended {output : String}
      (h : json.write (.array (analyzer.reportRecords files texts)) = output)
      (hend : ∀ start, output ≠ start ++ "\n") :
      Prints json analyzer files texts .json (output ++ "\n")

/-- What is seen of the check of scripts. It fails with the failure of the preferences, or else of
the first script that cannot be read. Otherwise it prints one report for each path, in order, each
on the text of its script alone, in the format that is given or else preferred. -/
inductive Ends (toml json : Codec) (surroundings : Surroundings) (config? : Option String)
    (files : List String) (format? : Option ReportFormat) (deny : Bool) :
    String × ℕ × Option RunError → Prop where
  | unresolved {error : RunError} (h : Resolves toml surroundings config? (.error error)) :
      Ends toml json surroundings config? files format? deny ("", 2, some error)
  | unread {preferences : Preferences} {before later texts : List String} {path : String}
      {error : RunError} (h : Resolves toml surroundings config? (.ok preferences))
      (hfiles : files = before ++ path :: later)
      (hbefore : ReadsAll surroundings [] before texts)
      (hread : Reads surroundings before path (.error error)) :
      Ends toml json surroundings config? files format? deny ("", 2, some error)
  | passed {preferences : Preferences} {analyzer : Analyzer} {texts : List String}
      {output : String} (h : Resolves toml surroundings config? (.ok preferences))
      (hanalyzer : analyzer.settings = preferences.settings)
      (hread : ReadsAll surroundings [] files texts)
      (hpass : ∀ text ∈ texts, (analyzer.analyze text).Passes (preferences.Denies deny))
      (houtput : Prints json analyzer files texts (format?.getD preferences.output.format)
        output) :
      Ends toml json surroundings config? files format? deny (output, 0, none)
  | rejected {preferences : Preferences} {analyzer : Analyzer} {texts : List String}
      {output : String} (h : Resolves toml surroundings config? (.ok preferences))
      (hanalyzer : analyzer.settings = preferences.settings)
      (hread : ReadsAll surroundings [] files texts)
      (hfail : ∃ text ∈ texts, ¬(analyzer.analyze text).Passes (preferences.Denies deny))
      (houtput : Prints json analyzer files texts (format?.getD preferences.output.format)
        output) :
      Ends toml json surroundings config? files format? deny (output, 1, none)

/-! ### Printing -/

lemma endLine_append (start : String) : endLine (start ++ "\n") = start ++ "\n" :=
  if_pos (String.endsWith_char_iff_exists_append.mpr ⟨start, rfl⟩)

lemma endLine_of_forall_ne {output : String} (h : ∀ start, output ≠ start ++ "\n") :
    endLine output = output ++ "\n" :=
  if_neg ((Bool.eq_false_iff).mp (String.endsWith_char_eq_false_iff_forall_append.mpr h))

lemma endLine_empty : endLine "" = "\n" :=
  endLine_of_forall_ne fun start h => by simpa using congrArg String.toList h

/-- Texts one behind the other end as the last of them. -/
lemma exists_join_eq {texts : List String} (hne : texts ≠ [])
    (h : ∀ text ∈ texts, ∃ start, text = start ++ "\n") :
    ∃ start, String.join texts = start ++ "\n" := by
  obtain ⟨start, hlast⟩ := h _ (List.getLast_mem hne)
  refine ⟨String.join texts.dropLast ++ start, ?_⟩
  have hsplit : String.join texts = String.join texts.dropLast ++ texts.getLast hne := by
    conv_lhs => rw [← List.dropLast_append_getLast hne, String.join_append, String.join_cons,
      String.join_nil, String.append_empty]
  rw [hsplit, hlast, String.append_assoc]

/-- The last line of a report is ended. -/
lemma Verdict.exists_text_eq (verdict : Verdict) (name : String) :
    ∃ start, verdict.text name = start ++ "\n" := by
  refine exists_join_eq (by simp [lines]) fun text htext => ?_
  obtain ⟨line, -, rfl⟩ := List.mem_map.mp htext
  exact ⟨line, rfl⟩

section Printing

variable {analyzer : Analyzer} {texts : List String} {format : ReportFormat} {output : String}

lemma map_text_reports :
    (analyzer.reports files texts).map (fun report => report.verdict.text report.file) =
      analyzer.reportTexts files texts := by
  rw [Analyzer.reports, List.map_zipWith]
  rfl

lemma map_datum_reports :
    (analyzer.reports files texts).map FileReport.datum = analyzer.reportRecords files texts := by
  rw [Analyzer.reports, List.map_zipWith]
  rfl

/-- In text the reports follow one another. -/
lemma renderReports_text : renderReports json (analyzer.reports files texts) .text =
    String.join (analyzer.reportTexts files texts) :=
  congrArg String.join map_text_reports

/-- In JSON one array holds the records of the reports. -/
lemma renderReports_json : renderReports json (analyzer.reports files texts) .json =
    json.write (.array (analyzer.reportRecords files texts)) :=
  congrArg (fun items => json.write (.array items)) map_datum_reports

/-- The last line of reports in text is ended. -/
lemma exists_join_reportTexts {earlier : List String}
    (hread : ReadsAll surroundings earlier files texts) (hne : files ≠ []) :
    ∃ start, String.join (analyzer.reportTexts files texts) = start ++ "\n" := by
  cases hread with
  | nil => exact absurd rfl hne
  | cons h hrest =>
      refine exists_join_eq (List.cons_ne_nil _ _) fun text htext => ?_
      rw [← map_text_reports] at htext
      obtain ⟨report, -, rfl⟩ := List.mem_map.mp htext
      exact report.verdict.exists_text_eq report.file

/-- In text nothing is added to the reports, if there are any. -/
lemma prints_text_iff {earlier : List String}
    (hread : ReadsAll surroundings earlier files texts) :
    Prints json analyzer files texts .text output ↔
      endLine (String.join (analyzer.reportTexts files texts)) = output := by
  by_cases hne : files = []
  · have hempty : endLine (String.join (analyzer.reportTexts files texts)) = "\n" := by
      subst hne
      exact endLine_empty
    rw [hempty]
    constructor
    · rintro (h | _)
      · exact absurd hne h
      · rfl
    · rintro rfl
      exact .nothing hne
  · obtain ⟨start, hstart⟩ := exists_join_reportTexts hread hne
    have hended := endLine_append start
    rw [← hstart] at hended
    rw [hended]
    constructor
    · rintro (_ | h)
      · rfl
      · exact absurd h hne
    · rintro rfl
      exact .text hne

/-- In JSON a line ending is added where none stands. -/
lemma prints_json_iff : Prints json analyzer files texts .json output ↔
    endLine (json.write (.array (analyzer.reportRecords files texts))) = output := by
  constructor
  · rintro (_ | _ | h | ⟨rfl, hend⟩)
    · rw [h, endLine_append]
    · exact endLine_of_forall_ne hend
  · rintro rfl
    by_cases hended :
      ∃ start, json.write (.array (analyzer.reportRecords files texts)) = start ++ "\n"
    · obtain ⟨start, hstart⟩ := hended
      rw [hstart, endLine_append]
      exact .ended hstart
    · push Not at hended
      rw [endLine_of_forall_ne hended]
      exact .unended rfl hended

/-- What is printed on scripts that have been read. -/
lemma prints_iff {earlier : List String} (hread : ReadsAll surroundings earlier files texts) :
    Prints json analyzer files texts format output ↔
      endLine (renderReports json (analyzer.reports files texts) format) = output := by
  cases format with
  | text => rw [renderReports_text, prints_text_iff hread]
  | json => rw [renderReports_json, prints_json_iff]

end Printing

/-! ### Passing -/

lemma FileReport.passes_iff {preferences : Preferences} {report : FileReport} :
    report.passes (deny || preferences.output.denyWarnings) = true ↔
      report.verdict.Passes (preferences.Denies deny) := by
  rw [passes, Bool.and_eq_true, Bool.not_eq_true', Bool.and_eq_false_imp, Bool.or_eq_true,
    Verdict.hasWarnings, Bool.not_eq_false', List.isEmpty_iff]
  rfl

/-- All reports pass if all verdicts do. -/
lemma all_passes_iff {analyzer : Analyzer} {preferences : Preferences}
    {earlier texts : List String} (hread : ReadsAll surroundings earlier files texts) :
    (analyzer.reports files texts).all
        (FileReport.passes (deny || preferences.output.denyWarnings)) = true ↔
      ∀ text ∈ texts, (analyzer.analyze text).Passes (preferences.Denies deny) := by
  induction hread with
  | nil => simp [Analyzer.reports]
  | @cons earlier paths texts path text _ _ ih =>
      have hreports : analyzer.reports (path :: paths) (text :: texts) =
          ⟨shownName path, analyzer.analyze text⟩ :: analyzer.reports paths texts := rfl
      rw [hreports, List.all_cons, Bool.and_eq_true, ih, FileReport.passes_iff,
        List.forall_mem_cons]

/-! ### The run -/

/-- Settings that break no rule make an analyzer. -/
lemma Analyzer.ofSettings_eq {settings : Settings} (h : settings.violation? = none) :
    ofSettings settings = .ok ⟨settings, h⟩ := by
  unfold ofSettings
  split
  · rename_i hsome
    rw [h] at hsome
    cases hsome
  · rfl

section Run

variable {preferences : Preferences} {analyzer : Analyzer} {texts : List String}

/-- An analyzer with the settings of the preferences is the one they make. -/
lemma ofSettings_of_eq (hanalyzer : analyzer.settings = preferences.settings) :
    Analyzer.ofSettings preferences.settings = .ok analyzer := by
  rw [← hanalyzer]
  exact Analyzer.ofSettings_eq analyzer.accepted

lemma runCheck_of_error {error : RunError} (hanalyzer : analyzer.settings = preferences.settings)
    (hcheck : (checkFiles analyzer surroundings false files).2 = .error error) :
    (runCheck json surroundings preferences files format? deny).seen = ("", 2, some error) := by
  rw [runCheck, ofSettings_of_eq hanalyzer]
  simp only [hcheck]
  rfl

lemma runCheck_of_ok {reports : List FileReport}
    (hanalyzer : analyzer.settings = preferences.settings)
    (hcheck : (checkFiles analyzer surroundings false files).2 = .ok reports) :
    (runCheck json surroundings preferences files format? deny).seen =
      (endLine (renderReports json reports (format?.getD preferences.output.format)),
        if reports.all (FileReport.passes (deny || preferences.output.denyWarnings)) then 0 else 1,
        none) := by
  rw [runCheck, ofSettings_of_eq hanalyzer]
  simp only [hcheck]
  cases hall : reports.all (FileReport.passes (deny || preferences.output.denyWarnings)) <;>
    simp [Outcome.seen, Ending.exitCode, Ending.failure?]

end Run

/-- What is seen of a check is as it ends. -/
lemma seen_of_ends {seen : String × ℕ × Option RunError} (verbose : Bool)
    (h : Ends toml json surroundings config? files format? deny seen) :
    ((Invocation.mk config? verbose (.check files format? deny)).runWith toml json
      surroundings).seen = seen := by
  rw [Invocation.runWith]
  cases h with
  | unresolved h =>
      rw [resolve_eq_iff.mpr h]
      rfl
  | @unread preferences before later texts path error h hfiles hbefore hread =>
      subst hfiles
      rw [resolve_eq_iff.mpr h]
      have hcheck := @checkFiles_of_reads_error _ _ (Analyzer.mk _ h.violation?_eq_none) _ _ _
        later _ hbefore hread
      exact runCheck_of_error rfl hcheck
  | passed h hanalyzer hread hpass houtput =>
      rw [resolve_eq_iff.mpr h]
      refine (runCheck_of_ok hanalyzer (checkFiles_of_readsAll hread)).trans ?_
      rw [(prints_iff hread).mp houtput, if_pos ((all_passes_iff hread).mpr hpass)]
  | rejected h hanalyzer hread hfail houtput =>
      rw [resolve_eq_iff.mpr h]
      refine (runCheck_of_ok hanalyzer (checkFiles_of_readsAll hread)).trans ?_
      rw [(prints_iff hread).mp houtput, if_neg fun hall => ?_]
      obtain ⟨text, htext, hnot⟩ := hfail
      exact hnot ((all_passes_iff hread).mp hall text htext)

/-- A check ends in one way or another. -/
lemma exists_ends (toml json : Codec) (surroundings : Surroundings) (config? : Option String)
    (files : List String) (format? : Option ReportFormat) (deny : Bool) :
    ∃ seen, Ends toml json surroundings config? files format? deny seen := by
  rcases hresolve : resolve toml surroundings config? with error | preferences
  · exact ⟨_, .unresolved (resolve_eq_iff.mp hresolve)⟩
  · have h := resolve_eq_iff.mp hresolve
    rcases readsAll_or_error surroundings [] files with
      ⟨texts, hread⟩ | ⟨before, path, later, texts, error, hfiles, hbefore, hread⟩
    · by_cases hpass : ∀ text ∈ texts,
        ((Analyzer.mk _ h.violation?_eq_none).analyze text).Passes (preferences.Denies deny)
      · exact ⟨_, .passed h rfl hread hpass ((prints_iff hread).mpr rfl)⟩
      · push Not at hpass
        exact ⟨_, .rejected h rfl hread hpass ((prints_iff hread).mpr rfl)⟩
    · exact ⟨_, .unread h hfiles hbefore hread⟩

/-- No check fails because an analyzer refuses its settings. -/
lemma Ends.ne_settingsRejected {seen : String × ℕ × Option RunError}
    (h : Ends toml json surroundings config? files format? deny seen) (violation : SettingsError) :
    seen.2.2 ≠ some (.settingsRejected violation) := by
  have hloads : ∀ {path error}, Loads toml surroundings path (.error error) →
      error ≠ .settingsRejected violation := by
    rintro path error (_ | _ | _) heq <;> cases heq
  rintro heq
  cases h with
  | unresolved h =>
      cases h with
      | given h => exact hloads h (Option.some.inj heq)
      | named _ h => exact hloads h (Option.some.inj heq)
  | unread h hfiles hbefore hread => cases hread <;> cases heq
  | passed => cases heq
  | rejected => cases heq

/-- **A check** is all or nothing: it ends as `Ends` says, and in no other way. Preferences in force
always make an analyzer. -/
theorem check_all_or_nothing (toml json : Codec) (surroundings : Surroundings)
    (config? : Option String) (verbose : Bool) (files : List String)
    (format? : Option ReportFormat) (deny : Bool) :
    (∀ seen,
      ((Invocation.mk config? verbose (.check files format? deny)).runWith toml json
      surroundings).seen = seen ↔
        Ends toml json surroundings config? files format? deny seen) ∧
      (∀ preferences, Resolves toml surroundings config? (.ok preferences) →
        ∃ analyzer, Analyzer.ofSettings preferences.settings = .ok analyzer ∧
          analyzer.settings = preferences.settings) ∧
      ∀ violation,
        ((Invocation.mk config? verbose (.check files format? deny)).runWith toml json
          surroundings).ending.failure? ≠ some (.settingsRejected violation) := by
  obtain ⟨seen, hends⟩ := exists_ends toml json surroundings config? files format? deny
  have hseen := seen_of_ends verbose hends
  refine ⟨fun other => ⟨?_, seen_of_ends verbose⟩, fun preferences h => ?_, fun violation => ?_⟩
  · rintro rfl
    rw [hseen]
    exact hends
  · exact ⟨_, Analyzer.ofSettings_eq h.violation?_eq_none, rfl⟩
  · have hfailure := congrArg (fun seen => seen.2.2) hseen
    exact fun heq => hends.ne_settingsRejected violation (hfailure.symm.trans heq)

end ScriptLint
