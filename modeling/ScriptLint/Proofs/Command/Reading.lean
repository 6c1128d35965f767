import Mathlib
import ScriptLint.Command.Run
import ScriptLint.Proofs.Settings.Demands

/-!
What a command reads.

* `ReadsAs`: bytes as text.
* `Loads`, `Resolves`: the preferences in a file, and those in force (`resolve_eq_iff`).
* `Reads`, `ReadsAll`: the text of a script behind others, and the texts of scripts one after the
  other (`scriptText_eq_iff`).
* `checkFiles_of_readsAll`, `checkFiles_of_reads_error`: reports are made if all scripts are read,
  and else the first script that is not read decides; it is one or the other
  (`readsAll_or_error`).
-/

namespace ScriptLint

variable {toml : Codec} {surroundings : Surroundings} {path : String}

/-! ### Text -/

/-- Bytes, or the reason why there are none, as text. -/
inductive ReadsAs (source : Except ReadError ByteArray) : Except ReadError String → Prop where
  | text {text : String} (h : source = .ok text.toUTF8) : ReadsAs source (.ok text)
  | failed {cause : ReadError} (h : source = .error cause) : ReadsAs source (.error cause)
  | notText {bytes : ByteArray} (h : source = .ok bytes) (hbytes : ¬bytes.IsValidUTF8) :
      ReadsAs source (.error .notText)

/-- The text of a document is read from its bytes. -/
lemma decodeText_toUTF8 (text : String) : decodeText text.toUTF8 = .ok text := by
  have hread : String.fromUTF8? text.toUTF8 = some text := dif_pos text.isValidUTF8
  rw [decodeText, hread]

lemma decodeText_eq_error {bytes : ByteArray} (h : ¬bytes.IsValidUTF8) :
    decodeText bytes = .error .notText := by
  have hread : String.fromUTF8? bytes = none := dif_neg h
  rw [decodeText, hread]

lemma bind_decodeText_eq_iff {source : Except ReadError ByteArray}
    {result : Except ReadError String} :
    source.bind decodeText = result ↔ ReadsAs source result := by
  constructor
  · rintro rfl
    rcases source with cause | bytes
    · exact .failed rfl
    · by_cases h : bytes.IsValidUTF8
      · obtain ⟨text, rfl⟩ : ∃ text : String, bytes = text.toUTF8 := ⟨String.fromUTF8 bytes h, rfl⟩
        have hread : (Except.ok text.toUTF8).bind decodeText = .ok text := decodeText_toUTF8 text
        rw [hread]
        exact .text rfl
      · have hread : (Except.ok bytes).bind decodeText = .error .notText := decodeText_eq_error h
        rw [hread]
        exact .notText rfl h
  · rintro (⟨rfl⟩ | ⟨rfl⟩ | ⟨rfl, hbytes⟩)
    · exact decodeText_toUTF8 _
    · rfl
    · exact decodeText_eq_error hbytes

/-! ### Preferences -/

/-- A document is a table that has the preferences in it. -/
def IsDocumentOf (toml : Codec) (document : String) (preferences : Preferences) : Prop :=
  ∃ table, toml.parse? document = some table ∧
    Preferences.read? toml.reader table = some preferences

/-- The preferences in the file at a path, or why there are none: the file cannot be read, its text
is no document of preferences, or their settings do not meet a demand. -/
inductive Loads (toml : Codec) (surroundings : Surroundings) (path : String) :
    Except RunError Preferences → Prop where
  | unreadable {cause : ReadError} (hread : ReadsAs (surroundings.file path) (.error cause)) :
      Loads toml surroundings path (.error (.configUnreadable path cause))
  | malformed {document : String} (hread : ReadsAs (surroundings.file path) (.ok document))
      (h : ∀ preferences, ¬IsDocumentOf toml document preferences) :
      Loads toml surroundings path (.error (.configMalformed path))
  | unusable {document : String} {preferences : Preferences} {failure : SettingsError}
      (hread : ReadsAs (surroundings.file path) (.ok document))
      (h : IsDocumentOf toml document preferences)
      (hfailure : IsFirstFailure failure preferences.settings.demands) :
      Loads toml surroundings path (.error (.configUnusable path failure))
  | usable {document : String} {preferences : Preferences}
      (hread : ReadsAs (surroundings.file path) (.ok document))
      (h : IsDocumentOf toml document preferences)
      (hmet : ∀ demand ∈ preferences.settings.demands, demand.isMet) :
      Loads toml surroundings path (.ok preferences)

lemma isDocumentOf_iff {document : String} {preferences : Preferences} :
    IsDocumentOf toml document preferences ↔
      toml.decode? Preferences.read? document = some preferences :=
  Option.bind_eq_some_iff.symm

lemma loadPreferences_eq_iff {result : Except RunError Preferences} :
    loadPreferences toml surroundings path = result ↔ Loads toml surroundings path result := by
  constructor
  · rintro rfl
    rw [loadPreferences]
    rcases hread : (surroundings.file path).bind decodeText with cause | document
    · exact .unreadable (bind_decodeText_eq_iff.mp hread)
    · have htext := bind_decodeText_eq_iff.mp hread
      simp only [preferencesIn, Preferences.ofDocument]
      rcases hdocument : toml.decode? Preferences.read? document with _ | preferences
      · refine .malformed htext fun preferences h => ?_
        rw [isDocumentOf_iff, hdocument] at h
        cases h
      · rcases hviolation : preferences.settings.violation? with _ | failure
        · simp only [hviolation]
          exact .usable htext (isDocumentOf_iff.mpr hdocument)
            (preferences.settings.violation?_eq_none_iff.mp hviolation)
        · simp only [hviolation]
          exact .unusable htext (isDocumentOf_iff.mpr hdocument)
            (preferences.settings.violation?_eq_some_iff.mp hviolation)
  · intro h
    rw [loadPreferences]
    cases h with
    | unreadable hread => rw [bind_decodeText_eq_iff.mpr hread]
    | malformed hread h =>
        rename_i document
        have hnone : toml.decode? Preferences.read? document = none :=
          Option.eq_none_iff_forall_ne_some.mpr fun preferences heq =>
            h preferences (isDocumentOf_iff.mpr heq)
        simp only [bind_decodeText_eq_iff.mpr hread, preferencesIn, Preferences.ofDocument, hnone]
    | unusable hread h hfailure =>
        simp only [bind_decodeText_eq_iff.mpr hread, preferencesIn, Preferences.ofDocument,
          isDocumentOf_iff.mp h, (Settings.violation?_eq_some_iff _).mpr hfailure]
    | usable hread h hmet =>
        simp only [bind_decodeText_eq_iff.mpr hread, preferencesIn, Preferences.ofDocument,
          isDocumentOf_iff.mp h, (Settings.violation?_eq_none_iff _).mpr hmet]

/-- The preferences in force: those in the file that is given, else those in the file that the
variable names, else the standard ones. -/
inductive Resolves (toml : Codec) (surroundings : Surroundings) :
    Option String → Except RunError Preferences → Prop where
  | given {path : String} {result : Except RunError Preferences}
      (h : Loads toml surroundings path result) : Resolves toml surroundings (some path) result
  | named {path : String} {result : Except RunError Preferences}
      (hnamed : surroundings.configVariable? = some path)
      (h : Loads toml surroundings path result) : Resolves toml surroundings none result
  | standard (hnamed : surroundings.configVariable? = none) :
      Resolves toml surroundings none (.ok Preferences.standard)

lemma resolve_eq_iff {config? : Option String} {result : Except RunError Preferences} :
    resolve toml surroundings config? = result ↔ Resolves toml surroundings config? result := by
  constructor
  · rintro rfl
    rcases config? with _ | path
    · rcases hnamed : surroundings.configVariable? with _ | path
      · have hresolve : resolve toml surroundings none = .ok Preferences.standard := by
          rw [resolve, hnamed]
          rfl
        rw [hresolve]
        exact .standard hnamed
      · have hresolve :
            resolve toml surroundings none = loadPreferences toml surroundings path := by
          rw [resolve, hnamed]
          rfl
        rw [hresolve]
        exact .named hnamed (loadPreferences_eq_iff.mp rfl)
    · exact .given (loadPreferences_eq_iff.mp rfl)
  · rintro (h | ⟨hnamed, h⟩ | hnamed)
    · exact loadPreferences_eq_iff.mpr h
    · rw [resolve, hnamed]
      exact loadPreferences_eq_iff.mpr h
    · rw [resolve, hnamed]
      rfl

/-- Preferences in force break no rule. -/
lemma Resolves.violation?_eq_none {config? : Option String} {preferences : Preferences}
    (h : Resolves toml surroundings config? (.ok preferences)) :
    preferences.settings.violation? = none := by
  have hloads : ∀ {path}, Loads toml surroundings path (.ok preferences) →
      preferences.settings.violation? = none := by
    rintro path (_ | _ | _ | ⟨-, -, hmet⟩)
    exact (Settings.violation?_eq_none_iff _).mpr hmet
  cases h with
  | given h => exact hloads h
  | named _ h => exact hloads h
  | standard => exact Settings.standard_accepted

/-! ### Scripts -/

/-- The text of the script at a path, behind scripts at other paths. All of the standard input is
read where its path comes first, and nothing where it comes again. -/
inductive Reads (surroundings : Surroundings) (earlier : List String) (path : String) :
    Except RunError String → Prop where
  | file {text : String} (hpath : isStandardInput path = false)
      (h : ReadsAs (surroundings.file path) (.ok text)) :
      Reads surroundings earlier path (.ok text)
  | fileFailed {cause : ReadError} (hpath : isStandardInput path = false)
      (h : ReadsAs (surroundings.file path) (.error cause)) :
      Reads surroundings earlier path (.error (.scriptUnreadable path cause))
  | input {text : String} (hpath : isStandardInput path = true)
      (hfirst : ∀ other ∈ earlier, isStandardInput other = false)
      (h : ReadsAs (.ok surroundings.input) (.ok text)) :
      Reads surroundings earlier path (.ok text)
  | inputFailed {cause : ReadError} (hpath : isStandardInput path = true)
      (hfirst : ∀ other ∈ earlier, isStandardInput other = false)
      (h : ReadsAs (.ok surroundings.input) (.error cause)) :
      Reads surroundings earlier path (.error (.inputUnreadable cause))
  | inputAgain {other : String} (hpath : isStandardInput path = true) (hother : other ∈ earlier)
      (htaken : isStandardInput other = true) : Reads surroundings earlier path (.ok "")

/-- The texts of scripts one after the other, behind scripts at other paths. -/
inductive ReadsAll (surroundings : Surroundings) :
    List String → List String → List String → Prop where
  | nil {earlier : List String} : ReadsAll surroundings earlier [] []
  | cons {earlier paths texts : List String} {path text : String}
      (h : Reads surroundings earlier path (.ok text))
      (hrest : ReadsAll surroundings (earlier ++ [path]) paths texts) :
      ReadsAll surroundings earlier (path :: paths) (text :: texts)

lemma scriptText_eq_iff {earlier : List String} {result : Except RunError String} :
    scriptText surroundings (earlier.any isStandardInput) path = result ↔
      Reads surroundings earlier path result := by
  have hinput :
      (Except.ok surroundings.input).bind decodeText = decodeText surroundings.input := rfl
  constructor
  · rintro rfl
    rw [scriptText]
    rcases hpath : isStandardInput path with _ | _
    · rcases hread : (surroundings.file path).bind decodeText with cause | text
      · exact .fileFailed hpath (bind_decodeText_eq_iff.mp hread)
      · exact .file hpath (bind_decodeText_eq_iff.mp hread)
    · rcases htaken : earlier.any isStandardInput with _ | _
      · have hfirst : ∀ other ∈ earlier, isStandardInput other = false := by
          simpa using htaken
        rcases hread : decodeText surroundings.input with cause | text
        · exact .inputFailed hpath hfirst (bind_decodeText_eq_iff.mp (hinput.trans hread))
        · exact .input hpath hfirst (bind_decodeText_eq_iff.mp (hinput.trans hread))
      · obtain ⟨other, hother, hstandard⟩ := List.any_eq_true.mp htaken
        exact .inputAgain hpath hother hstandard
  · intro h
    have hnot (hfirst : ∀ other ∈ earlier, isStandardInput other = false) :
        earlier.any isStandardInput = false := by
      simpa using hfirst
    rw [scriptText]
    cases h with
    | file hpath h =>
        rw [hpath, bind_decodeText_eq_iff.mpr h]
        rfl
    | fileFailed hpath h =>
        rw [hpath, bind_decodeText_eq_iff.mpr h]
        rfl
    | input hpath hfirst h =>
        rw [hpath, hnot hfirst, ← hinput, bind_decodeText_eq_iff.mpr h]
        rfl
    | inputFailed hpath hfirst h =>
        rw [hpath, hnot hfirst, ← hinput, bind_decodeText_eq_iff.mpr h]
        rfl
    | inputAgain hpath hother htaken =>
        rw [hpath, List.any_eq_true.mpr ⟨_, hother, htaken⟩]
        rfl

/-! ### Reports -/

section Reports

variable {analyzer : Analyzer} {earlier files texts : List String}

/-- The reports on the texts of scripts, one for each path. -/
def Analyzer.reports (analyzer : Analyzer) (files texts : List String) : List FileReport :=
  List.zipWith (fun path text => ⟨shownName path, analyzer.analyze text⟩) files texts

lemma checkFiles_cons (inputTaken : Bool) (path : String) (rest : List String) :
    (checkFiles analyzer surroundings inputTaken (path :: rest)).2 =
      (scriptText surroundings inputTaken path).bind fun text =>
        (checkFiles analyzer surroundings (inputTaken || isStandardInput path) rest).2.map
          (⟨shownName path, analyzer.analyze text⟩ :: ·) := by
  rw [checkFiles]
  rcases scriptText surroundings inputTaken path with cause | text <;> rfl

/-- Reports are made if all scripts are read. -/
lemma checkFiles_of_readsAll (h : ReadsAll surroundings earlier files texts) :
    (checkFiles analyzer surroundings (earlier.any isStandardInput) files).2 =
      .ok (analyzer.reports files texts) := by
  induction h with
  | nil => rfl
  | @cons earlier paths texts path text hread hrest ih =>
      rw [List.any_append, List.any_cons, List.any_nil, Bool.or_false] at ih
      rw [checkFiles_cons, scriptText_eq_iff.mpr hread]
      simp only [Except.bind, ih]
      rfl

/-- The first script that is not read decides. -/
lemma checkFiles_of_reads_error {before later : List String} {error : RunError}
    (hbefore : ReadsAll surroundings earlier before texts)
    (hread : Reads surroundings (earlier ++ before) path (.error error)) :
    (checkFiles analyzer surroundings (earlier.any isStandardInput)
      (before ++ path :: later)).2 = .error error := by
  induction hbefore with
  | nil =>
      rw [List.append_nil] at hread
      rw [List.nil_append, checkFiles_cons, scriptText_eq_iff.mpr hread]
      rfl
  | @cons earlier paths texts first text hfirst hrest ih =>
      rw [List.append_assoc] at ih
      have hmore := ih hread
      rw [List.any_append, List.any_cons, List.any_nil, Bool.or_false] at hmore
      rw [List.cons_append, checkFiles_cons, scriptText_eq_iff.mpr hfirst]
      simp only [Except.bind, hmore]
      rfl

/-- All scripts are read, or there is a first one that is not. -/
lemma readsAll_or_error (surroundings : Surroundings) (earlier files : List String) :
    (∃ texts, ReadsAll surroundings earlier files texts) ∨
      ∃ before path later texts error, files = before ++ path :: later ∧
        ReadsAll surroundings earlier before texts ∧
          Reads surroundings (earlier ++ before) path (.error error) := by
  induction files generalizing earlier with
  | nil => exact .inl ⟨[], .nil⟩
  | cons path files ih =>
      rcases hread : scriptText surroundings (earlier.any isStandardInput) path with error | text
      · refine .inr ⟨[], path, files, [], error, rfl, .nil, ?_⟩
        rw [List.append_nil]
        exact scriptText_eq_iff.mp hread
      · have hfirst := scriptText_eq_iff.mp hread
        rcases ih (earlier ++ [path]) with ⟨texts, hrest⟩ |
          ⟨before, other, later, texts, error, rfl, hbefore, herror⟩
        · exact .inl ⟨text :: texts, .cons hfirst hrest⟩
        · rw [List.append_assoc] at herror
          exact .inr ⟨path :: before, other, later, text :: texts, error, rfl,
            .cons hfirst hbefore, herror⟩

end Reports

end ScriptLint
