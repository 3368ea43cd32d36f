import Schemata.Proofs.Command.Termination
import Schemata.Proofs.Registry.Blame
import Schemata.Proofs.Validation.Validator

/-!
# How validations end

A validation looks at its settings, at the schema, at the instance, and then judges, and it ends
with the first of these that fails.  So what a caller sees, an exit code and an output, tells which
of them it was, and a report is the one that a validator gives.

An instance in YAML that has no JSON form is judged as the text that it is.
-/

namespace Schemata

open Build (Ends)
open Json (Value)
open Validation (Report ResultCode Validator)

/-- The innermost error lies in the cache or in a store. -/
def SchemaError.IsOperational (e : SchemaError) : Prop :=
  (∃ name key, e.innermost = .brokenCache name key) ∨
    (∃ name key source, e.innermost = .cacheWrite name key source) ∨
      ∃ source, e.innermost = .store source

theorem SchemaError.isOperational_iff {e : SchemaError} :
    e.IsOperational ↔ e.isInvalidSchema = false := by
  rw [← isInvalidSchema_innermost, IsOperational]
  have hflat : ∀ reference source, e.innermost ≠ .brokenExtend reference source := by
    induction e with
    | brokenExtend _ _ ih => exact ih
    | _ => simp [innermost]
  cases h : e.innermost with
  | brokenExtend reference source => exact absurd h (hflat reference source)
  | _ => simp [isInvalidSchema]

namespace Command

/-- The text of a schema that a validator can use. -/
def IsObject (text : String) : Prop :=
  ∃ members, Value.read text = .ok (.object members)

/-- The ending that a verdict leads to. -/
def Ending.ofVerdict : Except SchemaError Report → Ending
  | .ok r => .report r
  | .error e => .ofError e

/-- A command line for a validation, with the standard input and the files that it finds. -/
structure Trial where
  options : Options
  source : String
  schema : String
  allowAdditional : Bool
  input : ByteArray
  files : FileSystem

namespace Trial

variable (t : Trial)

/-- How the validation ends, and the files that it leaves. -/
def run : Ending × FileSystem :=
  Invocation.run ⟨t.options, .validate t.source t.schema t.allowAdditional⟩ t.input t.files

/-- The settings of the command line. -/
def settings : Except SettingsFault Settings :=
  settingsOf t.options t.files

/-- The registry has this answer for the schema, and leaves these files. -/
def Answers (s : Settings) (answer : Except SchemaError String) (made : FileSystem) : Prop :=
  Ends ((registryOf s).getSchema (levelsFor t.files) t.schema) t.files answer made

/-- The registry has an answer, if there are settings to ask it with. -/
def Answered : Prop :=
  ∀ s, t.settings = .ok s → ∃ answer made, t.Answers s answer made

/-- The text of the instance, which is read when the schema has been built. -/
def instanceText? (made : FileSystem) : Option String :=
  Command.instanceText? made t.input t.source

/-- What a validator says on the two texts; the settings or the command line make it lenient. -/
def verdict (s : Settings) (instanceText schemaText : String) : Except SchemaError Report :=
  ((Validator.fresh Pattern.engine (s.allowsAdditional || t.allowAdditional)).validate
    instanceText schemaText).1

variable {t : Trial} {s : Settings} {schemaText instanceText : String} {made : FileSystem}
  {e : SchemaError} {r : Report}

/-! ## The steps of a validation -/

theorem run_of_settings {fault : SettingsFault} (h : t.settings = .error fault) :
    t.run.1 = .failed (.settings fault) := by
  rw [run, Invocation.run, ← settings, h]

theorem run_eq_runValidate (hs : t.settings = .ok s) :
    t.run = runValidate s t.source t.schema t.allowAdditional t.input t.files := by
  rw [run, Invocation.run, ← settings, hs]

theorem buildSchema_of_answers {answer : Except SchemaError String}
    (h : t.Answers s answer made) :
    buildSchema s t.schema t.files = (answer.mapError .ofError, made) := by
  rw [buildSchema, show StateT.run (ExceptT.run _) t.files = _ from h]
  cases answer with
  | ok schemaText => rfl
  | error e => rfl

theorem run_of_error (hs : t.settings = .ok s) (h : t.Answers s (.error e) made) :
    t.run.1 = .ofError e := by
  rw [run_eq_runValidate hs]
  simp only [runValidate, buildSchema_of_answers h, Except.mapError]

theorem run_of_unreadable (hs : t.settings = .ok s) (h : t.Answers s (.ok schemaText) made)
    (hsource : t.instanceText? made = none) : t.run.1 = .failed .source := by
  rw [instanceText?] at hsource
  rw [run_eq_runValidate hs]
  simp only [runValidate, buildSchema_of_answers h, Except.mapError, hsource]

theorem run_of_verdict (hs : t.settings = .ok s) (h : t.Answers s (.ok schemaText) made)
    (hsource : t.instanceText? made = some instanceText) :
    t.run = (.ofVerdict (t.verdict s instanceText schemaText), made) := by
  rw [instanceText?] at hsource
  rw [run_eq_runValidate hs, verdict]
  simp only [runValidate, buildSchema_of_answers h, Except.mapError, hsource]
  cases Validator.validate _ instanceText schemaText with
  | mk verdict after =>
    cases verdict with
    | ok r => rfl
    | error e => rfl

/-! ## Verdicts -/

/-- A schema that is no object has itself to blame. -/
theorem verdict_of_not_isObject (t : Trial) (s : Settings) (instanceText : String)
    (h : ¬ IsObject schemaText) :
    ∃ e, t.verdict s instanceText schemaText = .error e ∧ e.isInvalidSchema = true := by
  cases hparse : parseDocument inlineName schemaText with
  | ok members => exact absurd ⟨members, parseDocument_eq_ok.mp hparse⟩ h
  | error e =>
    obtain ⟨fault, rfl⟩ := exists_fault_of_parseDocument hparse
    refine ⟨.unparsable inlineName fault, ?_, rfl⟩
    simp only [verdict, Validator.validate, hparse]

/-- Against an object every text has a report, and it is malformed if it is not JSON. -/
theorem verdict_of_isObject (t : Trial) (s : Settings) (instanceText : String)
    (h : IsObject schemaText) :
    ∃ r, t.verdict s instanceText schemaText = .ok r ∧
      (r.code = .malformedInput ↔ ∀ v, Value.read instanceText ≠ .ok v) ∧
      (r.code = .valid ∨ r.code = .invalid ∨ r.code = .malformedInput) := by
  obtain ⟨members, hread⟩ := h
  have hparse : parseDocument inlineName schemaText = .ok members := parseDocument_eq_ok.mpr hread
  cases hinstance : Value.read instanceText with
  | error fault =>
    refine ⟨.malformed, ?_, by simp [Report.malformed], by simp [Report.malformed]⟩
    simp only [verdict, Validator.validate, hparse, hinstance]
  | ok value =>
    let validator := Validator.fresh Pattern.engine (s.allowsAdditional || t.allowAdditional)
    let report := (validator.validateValue value (.object members)).1
    have hcode : report.code = .valid ∨ report.code = .invalid := by
      change (if _ then ResultCode.valid else .invalid) = _ ∨
        (if _ then ResultCode.valid else .invalid) = _
      split <;> simp
    refine ⟨⟨report.code, report.errors, some value.compact⟩, ?_, ?_, ?_⟩
    · simp only [verdict, Validator.validate, hparse, hinstance, validator, report]
    · rcases hcode with hcode | hcode <;> simp [hcode]
    · rcases hcode with hcode | hcode <;> simp [hcode]

theorem isObject_of_verdict (h : t.verdict s instanceText schemaText = .ok r) :
    IsObject schemaText := by
  by_contra hobject
  obtain ⟨e, he, -⟩ := verdict_of_not_isObject t s instanceText hobject
  exact absurd (h.symm.trans he) (by simp)

variable (t) in
/-- The report is the one that a validator gives on the instance and the schema. -/
def Reports (r : Report) : Prop :=
  ∃ s schemaText made instanceText, t.settings = .ok s ∧ t.Answers s (.ok schemaText) made ∧
    t.instanceText? made = some instanceText ∧ t.verdict s instanceText schemaText = .ok r

variable (t) in
/-- The registry blames the schema documents, or what it answers is no object. -/
def SchemaAtFault : Prop :=
  ∃ s, t.settings = .ok s ∧
    ((∃ e made, t.Answers s (.error e) made ∧ e.isInvalidSchema = true) ∨
      ∃ schemaText made instanceText, t.Answers s (.ok schemaText) made ∧
        t.instanceText? made = some instanceText ∧ ¬ IsObject schemaText)

variable (t) in
/-- There are no settings, the registry blames its cache or a store, or the instance cannot be read
after it has answered. -/
def Fails : Prop :=
  (∃ fault, t.settings = .error fault) ∨
    ∃ s, t.settings = .ok s ∧
      ((∃ e made, t.Answers s (.error e) made ∧ e.IsOperational) ∨
        ∃ schemaText made, t.Answers s (.ok schemaText) made ∧ t.instanceText? made = none)

/-- One of these three is the case. -/
theorem fails_or_schemaAtFault_or_reports (h : t.Answered) :
    t.Fails ∨ t.SchemaAtFault ∨ ∃ r, t.Reports r := by
  cases hs : t.settings with
  | error fault => exact Or.inl (Or.inl ⟨fault, hs⟩)
  | ok s =>
    obtain ⟨answer, made, hanswer⟩ := h s hs
    cases answer with
    | error e =>
      cases he : e.isInvalidSchema with
      | true => exact Or.inr (Or.inl ⟨s, hs, Or.inl ⟨e, made, hanswer, he⟩⟩)
      | false =>
        have hoperational : e.IsOperational := SchemaError.isOperational_iff.mpr he
        exact Or.inl (Or.inr ⟨s, hs, Or.inl ⟨e, made, hanswer, hoperational⟩⟩)
    | ok schemaText =>
      cases hsource : t.instanceText? made with
      | none => exact Or.inl (Or.inr ⟨s, hs, Or.inr ⟨schemaText, made, hanswer, hsource⟩⟩)
      | some instanceText =>
        by_cases hobject : IsObject schemaText
        · obtain ⟨r, hr, -⟩ := verdict_of_isObject t s instanceText hobject
          exact Or.inr (Or.inr ⟨r, s, schemaText, made, instanceText, hs, hanswer, hsource, hr⟩)
        · exact Or.inr (Or.inl ⟨s, hs, Or.inr ⟨schemaText, made, instanceText, hanswer, hsource,
            hobject⟩⟩)

end Trial

/-! ## What a caller sees -/

/-- The ways in which a validation ends. -/
inductive Way where
  | accepted
  | refused
  | schemaAtFault
  | failed

/-- What a caller sees of the ending: the exit code, and a report or an empty output. -/
def Way.Shows : Way → Ending → Prop
  | accepted, e => e.exitCode = 0 ∧ ∃ r, e = .report r ∧ r.code = .valid
  | refused, e =>
    e.exitCode = 1 ∧ ∃ r, e = .report r ∧ (r.code = .invalid ∨ r.code = .malformedInput)
  | schemaAtFault, e => e.exitCode = 2 ∧ e.output = ""
  | failed, e => e.exitCode = 1 ∧ e.output = ""

/-- What has to be the case for a validation to end in the way. -/
def Way.Due : Way → Trial → Prop
  | accepted, t => ∃ r, t.Reports r ∧ r.code = .valid
  | refused, t => ∃ r, t.Reports r ∧ (r.code = .invalid ∨ r.code = .malformedInput)
  | schemaAtFault, t => t.SchemaAtFault
  | failed, t => t.Fails

variable {t : Trial} {way other : Way} {ending : Ending} {r : Report}

theorem output_report_ne : (Ending.report r).output ≠ "" := by
  intro h
  have hlist := congrArg String.toList h
  simp [Ending.output] at hlist

/-- The ways are told apart by what a caller sees. -/
theorem Way.Shows.unique (h : way.Shows ending) (hother : other.Shows ending) : way = other := by
  -- only two of them share an exit code, and of these only one has an output
  cases way with
  | accepted =>
    cases other with
    | accepted => rfl
    | _ => exact absurd (h.1.symm.trans hother.1) (by decide)
  | refused =>
    cases other with
    | refused => rfl
    | failed =>
      obtain ⟨-, r, rfl, -⟩ := h
      exact absurd hother.2 output_report_ne
    | _ => exact absurd (h.1.symm.trans hother.1) (by decide)
  | schemaAtFault =>
    cases other with
    | schemaAtFault => rfl
    | _ => exact absurd (h.1.symm.trans hother.1) (by decide)
  | failed =>
    cases other with
    | failed => rfl
    | refused =>
      obtain ⟨-, r, rfl, -⟩ := hother
      exact absurd h.2 output_report_ne
    | _ => exact absurd (h.1.symm.trans hother.1) (by decide)

theorem exitCode_report : (Ending.report r).exitCode = if r.code = .valid then 0 else 1 := by
  cases hcode : r.code <;> simp [Ending.exitCode, Report.isValid, hcode]

/-- An error of the registry or of the validator is told by its kind. -/
theorem ofError_eq (e : SchemaError) : Ending.ofError e =
    if e.isInvalidSchema = true then .schemaError e else .failed (.stores e) :=
  rfl

theorem Trial.Reports.run (h : t.Reports r) : t.run.1 = .report r := by
  obtain ⟨s, schemaText, made, instanceText, hs, hanswer, hsource, hverdict⟩ := h
  rw [Trial.run_of_verdict hs hanswer hsource, hverdict, Ending.ofVerdict]

/-- A validation ends in the way that is due. -/
theorem Way.Due.shows (h : way.Due t) : way.Shows t.run.1 := by
  cases way with
  | accepted =>
    obtain ⟨r, hreports, hcode⟩ := h
    rw [hreports.run]
    exact ⟨by rw [exitCode_report, if_pos hcode], r, rfl, hcode⟩
  | refused =>
    obtain ⟨r, hreports, hcode⟩ := h
    have hne : r.code ≠ .valid := by rcases hcode with hcode | hcode <;> simp [hcode]
    rw [hreports.run]
    exact ⟨by rw [exitCode_report, if_neg hne], r, rfl, hcode⟩
  | schemaAtFault =>
    obtain ⟨s, hs, hregistry | hobject⟩ := h
    · obtain ⟨e, made, hanswer, he⟩ := hregistry
      rw [Trial.run_of_error hs hanswer, ofError_eq, if_pos he]
      exact ⟨rfl, rfl⟩
    · obtain ⟨schemaText, made, instanceText, hanswer, hsource, hne⟩ := hobject
      obtain ⟨e, hverdict, he⟩ := Trial.verdict_of_not_isObject t s instanceText hne
      rw [Trial.run_of_verdict hs hanswer hsource, hverdict, Ending.ofVerdict, ofError_eq,
        if_pos he]
      exact ⟨rfl, rfl⟩
  | failed =>
    obtain ⟨fault, hs⟩ | ⟨s, hs, hregistry | hunreadable⟩ := h
    · rw [Trial.run_of_settings hs]
      exact ⟨rfl, rfl⟩
    · obtain ⟨e, made, hanswer, he⟩ := hregistry
      rw [Trial.run_of_error hs hanswer, ofError_eq,
        if_neg (by simp [SchemaError.isOperational_iff.mp he])]
      exact ⟨rfl, rfl⟩
    · obtain ⟨schemaText, made, hanswer, hsource⟩ := hunreadable
      rw [Trial.run_of_unreadable hs hanswer hsource]
      exact ⟨rfl, rfl⟩

theorem exists_due (h : t.Answered) : ∃ way : Way, way.Due t := by
  rcases Trial.fails_or_schemaAtFault_or_reports h with hfails | hfault | ⟨r, hreports⟩
  · exact ⟨.failed, hfails⟩
  · exact ⟨.schemaAtFault, hfault⟩
  · obtain ⟨s, schemaText, made, instanceText, hs, hanswer, hsource, hverdict⟩ := hreports
    obtain ⟨r', hr', -, hcode⟩ :=
      Trial.verdict_of_isObject t s instanceText (Trial.isObject_of_verdict hverdict)
    obtain rfl : r' = r := Except.ok.inj (hr'.symm.trans hverdict)
    have hreports : t.Reports r' :=
      ⟨s, schemaText, made, instanceText, hs, hanswer, hsource, hverdict⟩
    rcases hcode with hcode | hcode
    · exact ⟨.accepted, r', hreports, hcode⟩
    · exact ⟨.refused, r', hreports, hcode⟩

theorem shows_iff_due (h : t.Answered) : way.Shows t.run.1 ↔ way.Due t := by
  refine ⟨fun hshows => ?_, Way.Due.shows⟩
  obtain ⟨other, hdue⟩ := exists_due h
  exact hshows.unique hdue.shows ▸ hdue

theorem run_eq_report_iff (h : t.Answered) : t.run.1 = .report r ↔ t.Reports r := by
  refine ⟨fun hrun => ?_, Trial.Reports.run⟩
  rcases Trial.fails_or_schemaAtFault_or_reports h with hfails | hfault | ⟨r', hreports⟩
  · have hshows : Way.failed.Shows t.run.1 := Way.Due.shows hfails
    exact absurd (hrun ▸ hshows.2) output_report_ne
  · have hshows : Way.schemaAtFault.Shows t.run.1 := Way.Due.shows hfault
    exact absurd (hrun ▸ hshows.2) output_report_ne
  · obtain rfl : r' = r := Ending.report.inj (hreports.run.symm.trans hrun)
    exact hreports

/-- Unless a cache is used and one of its texts leads back to itself, the registry has an answer.
If it has one, the validation ends in exactly one way, as its settings, its schema and its instance
demand in this order, and what it reports is what a validator says. -/
theorem validation_ends_as_due (t : Trial) :
    ((∀ s, t.settings = .ok s → (registryOf s).usesCache = true → ¬ LeadsBack s t.files) →
      t.Answered) ∧
    (t.Answered →
      (∃! way : Way, way.Shows t.run.1) ∧
      (∀ way : Way, way.Shows t.run.1 ↔ way.Due t) ∧
      ∀ r, t.run.1 = .report r ↔ t.Reports r) := by
  refine ⟨fun h s hs => ends_getSchema (h s hs) t.schema, fun h => ⟨?_, fun way => shows_iff_due h,
    fun r => run_eq_report_iff h⟩⟩
  obtain ⟨way, hdue⟩ := exists_due h
  exact ⟨way, hdue.shows, fun other hother => hother.unique hdue.shows⟩

/-- Files with a schema that everything satisfies, and perhaps others. -/
def filesWith (others : List (Location × Entry)) : FileSystem :=
  ⟨[(["schemas"], .directory), (["schemas", "any.json"], .file "\x7b\x7d".toUTF8)] ++ others, []⟩

/-- A number from the standard input, against the schema through an empty cache. -/
def counted : Trial where
  options := ⟨none, none, some "cache", false⟩
  source := standardInput
  schema := "any.json"
  allowAdditional := false
  input := "1".toUTF8
  files := filesWith []

theorem settings_counted : counted.settings = .ok ⟨"schemas", some "cache", true, false⟩ :=
  rfl

theorem not_leadsBack_counted {s : Settings} (hs : counted.settings = .ok s) :
    ¬ LeadsBack s counted.files := by
  rintro ⟨name, text, -, ⟨l, hl, bytes, hfile, -⟩, -⟩
  obtain rfl := Except.ok.inj (settings_counted.symm.trans hs)
  have hplace : counted.files.place (.ofText "cache") = ["cache"] := by decide
  have hkey := tidyKey_cacheKey name
  rw [cachePlace?, cachePath?, Option.map_some, Option.map_some, Option.some.injEq,
    DirectoryStore.place_keyPath hkey.2, hkey.1, hplace] at hl
  subst hl
  have hmem : (["cache"] ++ [cacheKey name], bytes) ∈ counted.files.files :=
    FileSystem.mem_files hfile
  simp [FileSystem.files, counted, filesWith] at hmem

theorem counted_ends_as_due :
    counted.Answered ∧ (∃! way : Way, way.Shows counted.run.1) ∧ Way.accepted.Due counted ∧
      counted.Reports ⟨.valid, .empty, some "1"⟩ := by
  obtain ⟨hanswered, hends⟩ := validation_ends_as_due counted
  have hrun : counted.run.1 = .report ⟨.valid, .empty, some "1"⟩ := by decide +kernel
  have hanswered := hanswered fun s hs _ => not_leadsBack_counted hs
  obtain ⟨hway, hdue, hreports⟩ := hends hanswered
  refine ⟨hanswered, hway, (hdue .accepted).mp ?_, (hreports _).mp hrun⟩
  rw [hrun]
  exact ⟨rfl, _, rfl, rfl⟩

/-- Neither the schema nor the instance is there. -/
def absent : Trial where
  options := ⟨none, none, none, false⟩
  source := "absent.json"
  schema := "missing.json"
  allowAdditional := false
  input := .empty
  files := filesWith []

theorem absent_is_not_told_of_its_instance :
    absent.instanceText? absent.run.2 = none ∧ absent.settings = .ok .default ∧
      absent.Answers .default (.error (.notFound "missing.json")) absent.files ∧
      Way.schemaAtFault.Shows absent.run.1 ∧ ¬ Way.failed.Shows absent.run.1 := by
  have hrun : absent.run = (.schemaError (.notFound "missing.json"), absent.files) := by
    decide +kernel
  refine ⟨?_, rfl, ?_, ?_, ?_⟩
  · rw [hrun]
    decide +kernel
  · unfold Trial.Answers Ends
    decide +kernel
  · rw [hrun]
    exact ⟨rfl, rfl⟩
  · rw [hrun]
    exact fun h => absurd h.1 (by decide)

/-! ## Instances in YAML -/

variable {s : Settings} {made : FileSystem} {schemaText text : String} {fault : Yaml.TextFault}

theorem instanceText?_of_unconvertible (hsource : t.source ≠ standardInput)
    (hyaml : isYaml (.ofText t.source) = true)
    (hread : made.read (.ofText t.source) = .ok text.toUTF8)
    (hfault : Yaml.jsonText text = .error fault) : t.instanceText? made = some text := by
  rw [Trial.instanceText?, instanceText?, if_neg hsource]
  simp only [hread, hyaml, hfault, Utf8.fromUTF8?_toUTF8, Option.map_some, if_true]

/-- An instance that is no YAML, or has no JSON form, is judged as the text that it is: it counts as
malformed only if it is not JSON either. -/
theorem unconvertible_yaml_is_judged_as_text (hs : t.settings = .ok s)
    (hanswer : t.Answers s (.ok schemaText) made) (hobject : IsObject schemaText)
    (hsource : t.source ≠ standardInput) (hyaml : isYaml (.ofText t.source) = true)
    (hread : made.read (.ofText t.source) = .ok text.toUTF8)
    (hfault : Yaml.jsonText text = .error fault) :
    ∃ r, t.run = (.report r, made) ∧ t.verdict s text schemaText = .ok r ∧
      (r.code = .malformedInput ∧ t.run.1.exitCode = 1 ↔ ∀ v, Value.read text ≠ .ok v) := by
  have htext := instanceText?_of_unconvertible hsource hyaml hread hfault
  obtain ⟨r, hverdict, hmalformed, -⟩ := Trial.verdict_of_isObject t s text hobject
  have hrun : t.run = (.report r, made) := by
    rw [Trial.run_of_verdict hs hanswer htext, hverdict, Ending.ofVerdict]
  refine ⟨r, hrun, hverdict, fun h => hmalformed.mp h.1, fun h => ?_⟩
  have hcode : r.code = .malformedInput := hmalformed.mpr h
  exact ⟨hcode, by rw [hrun, exitCode_report, hcode]; rfl⟩

/-- A mapping with a key that comes twice, which YAML rules out. -/
def doubled : Trial where
  options := ⟨none, none, none, false⟩
  source := "twice.yaml"
  schema := "any.json"
  allowAdditional := false
  input := .empty
  files := filesWith [(["twice.yaml"], .file "\x7b\"a\":1,\"a\":2\x7d".toUTF8)]

theorem doubled_is_accepted :
    Yaml.jsonText "\x7b\"a\":1,\"a\":2\x7d" = .error .notYaml ∧
      ∃ r, doubled.run = (.report r, doubled.files) ∧ r.code = .valid ∧
        (r.code = .malformedInput ∧ doubled.run.1.exitCode = 1 ↔
          ∀ v, Value.read "\x7b\"a\":1,\"a\":2\x7d" ≠ .ok v) := by
  have hfault : Yaml.jsonText "\x7b\"a\":1,\"a\":2\x7d" = .error .notYaml := by
    have hnone : (Yaml.Value.ofText? "\x7b\"a\":1,\"a\":2\x7d").isNone = true := by
      decide +kernel
    rw [Yaml.jsonText, Option.isNone_iff_eq_none.mp hnone]
  have hanswer : doubled.Answers .default (.ok "\x7b\"type\":\"any\"\x7d") doubled.files := by
    unfold Trial.Answers Ends
    decide +kernel
  obtain ⟨r, hrun, -, hmalformed⟩ := unconvertible_yaml_is_judged_as_text (t := doubled) rfl hanswer
    ⟨[("type", .string "any")], by decide +kernel⟩ (by decide) (by decide) rfl hfault
  have hcode : doubled.run.1.exitCode = 0 := by decide +kernel
  refine ⟨hfault, r, hrun, ?_, hmalformed⟩
  rw [hrun, exitCode_report] at hcode
  by_contra hne
  simp [hne] at hcode

end Command
end Schemata
