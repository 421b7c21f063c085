import Scorecard.Proofs.Denoted
import Scorecard.Proofs.Json.Digits
import Scorecard.Report.Reader

/-!
# What the reader tolerates

A tolerant reader gives every document a report: a field that is missing, of another kind or denotes
nothing has its default, and entries of lists that are no mappings are left out. The reader of
reports comes close. It gives that report of any document of the format, unless an infinity stands
in the place of an integer or an integer beyond the floats in the place of a score. The first such
field is the fault.
-/

namespace Scorecard

namespace Entries

/-- The integer that the value under a key denotes, or a default. -/
def integerAt (entries : Entries) (key : String) (default : ℤ) : ℤ :=
  (entries.held? key Data.integer?).getD default

/-- The score that the value under a key denotes, or the neutral one. -/
def scoreAt (entries : Entries) (key : String) : Number :=
  .float ((entries.held? key Data.float?).getD (.ofInt 50))

/-- The value under one of two names; the first name is asked first. -/
def getEither? (entries : Entries) (wireName plainName : String) : Option Data :=
  (entries.get? wireName).orElse fun _ => entries.get? plainName

/-- The count under one of two names; what denotes none counts zero. -/
def countAt (entries : Entries) (wireName plainName : String) : ℤ :=
  max 0 (((entries.getEither? wireName plainName).bind Data.integer?).getD 0)

/-- The faults of the value under one of two names as a count. -/
def countFaultsAt (entries : Entries) (wireName plainName : String) : List Fault :=
  (entries.getEither? wireName plainName).elim [] Data.integerFaults

/-- The text of the value under a key, or an empty one. -/
def textAt (entries : Entries) (key : String) : String :=
  (entries.get? key).elim "" Data.shown

/-- The text of the value under a key, unless the value is absent. -/
def optionalTextAt (entries : Entries) (key : String) : Option String :=
  match entries.get? key with
  | none | some .null => none
  | some value => some value.shown

/-- The texts of the items of the list under a key; anything else holds none. -/
def textsAt (entries : Entries) (key : String) : List String :=
  match entries.get? key with
  | some (.list items) => items.map Data.shown
  | _ => []

/-- Whether the value under a key counts as true. -/
def flagAt (entries : Entries) (key : String) : Bool :=
  (entries.get? key).elim false Data.isTruthy

/-- The entries of the mapping under a key; anything else has none. -/
def entriesAt (entries : Entries) (key : String) : Entries :=
  (entries.get? key).elim [] Report.entriesOf

/-- The mappings in the list under a key; anything else holds none. -/
def mappingsAt (entries : Entries) (key : String) : List Entries :=
  (entries.get? key).elim [] Report.mappingsOf

end Entries

/-- The counts in the entries of a document. -/
def Metrics.tolerated (entries : Entries) : Metrics where
  nestedLoops := entries.countAt "nestedLoops" "nested_loops"
  consoleLogs := entries.countAt "consoleLogs" "console_logs"
  longFunctions := entries.countAt "longFunctions" "long_functions"
  securityRisks := entries.countAt "securityRisks" "security_risks"
  poorNaming := entries.countAt "poorNaming" "poor_naming"
  missingErrorHandling := min 1 (entries.countAt "missingErrorHandling" "missing_error_handling")

/-- The faults of the counts, in the order in which they are read. -/
def Metrics.faults (entries : Entries) : List Fault :=
  entries.countFaultsAt "nestedLoops" "nested_loops" ++
    (entries.countFaultsAt "consoleLogs" "console_logs" ++
      (entries.countFaultsAt "longFunctions" "long_functions" ++
        (entries.countFaultsAt "securityRisks" "security_risks" ++
          (entries.countFaultsAt "poorNaming" "poor_naming" ++
            entries.countFaultsAt "missingErrorHandling" "missing_error_handling"))))

/-- The scores in the entries of a document. -/
def Scores.tolerated (entries : Entries) : Scores where
  codeQuality := entries.scoreAt "codeQuality"
  timeComplexity := entries.scoreAt "timeComplexity"
  spaceComplexity := entries.scoreAt "spaceComplexity"
  security := entries.scoreAt "security"
  readability := entries.scoreAt "readability"

/-- The faults of the scores. -/
def Scores.faults (entries : Entries) : List Fault :=
  let score := fun key => entries.faultsAt key Data.floatFaults
  score "codeQuality" ++ (score "timeComplexity" ++ (score "spaceComplexity" ++ (score "security" ++
    score "readability")))

/-- The feedback in the entries of a document. -/
def Feedback.tolerated (entries : Entries) : Feedback where
  strengths := entries.textsAt "strengths"
  weaknesses := entries.textsAt "weaknesses"
  suggestions := entries.textsAt "suggestions"
  interviewQuestions := entries.textsAt "interviewQuestions"
  detailedAnalysis := entries.textAt "detailedAnalysis"

/-- The result of a submission in the entries of a document. -/
def SubmissionReport.tolerated (entries : Entries) : SubmissionReport where
  label := entries.textAt "label"
  submittedAt := entries.textAt "submitted_at"
  result := {
    language := entries.textAt "language"
    family := entries.optionalTextAt "family"
    interviewMode := entries.flagAt "interview_mode"
    metrics := .tolerated (entries.entriesAt "static_analysis")
    scores := .tolerated (entries.entriesAt "scores")
    feedback := .tolerated (entries.entriesAt "feedback")
    staticPenalty := entries.integerAt "static_penalty" 0
    devScore := entries.integerAt "dev_score" 0
    fallback := entries.flagAt "fallback" }

/-- The faults of a submission. -/
def SubmissionReport.faults (entries : Entries) : List Fault :=
  let integer := fun key => entries.faultsAt key Data.integerFaults
  Metrics.faults (entries.entriesAt "static_analysis") ++
    (Scores.faults (entries.entriesAt "scores") ++
      (integer "static_penalty" ++ integer "dev_score"))

/-- The statistics in the entries of a document. -/
def Statistics.tolerated (entries : Entries) : Statistics where
  totalSubmissions := entries.integerAt "total_submissions" 0
  averageDevScore := entries.integerAt "average_dev_score" 0
  latestDevScore := .int (entries.integerAt "latest_dev_score" 0)
  improvement := entries.integerAt "improvement" 0
  weakestSkill := entries.optionalTextAt "weakest_skill"
  scoreBreakdown := (entries.entriesAt "score_breakdown").map fun entry =>
    ((Data.scalar entry.1).shown, entry.2.integer?.getD 0)
  recentTrend := entries.mappingsAt "recent_trend"

/-- The faults of the statistics. -/
def Statistics.faults (entries : Entries) : List Fault :=
  let integer := fun key => entries.faultsAt key Data.integerFaults
  integer "total_submissions" ++ (integer "average_dev_score" ++ (integer "latest_dev_score" ++
    (integer "improvement" ++
      (entries.entriesAt "score_breakdown").flatMap fun entry => entry.2.integerFaults)))

namespace Report

/-- The report of a document. -/
def tolerated (data : Data) : Report :=
  let entries := entriesOf data
  { schemaVersion := entries.integerAt "schema_version" Scorecard.schemaVersion
    generatedAt := entries.textAt "generated_at"
    submissions := (entries.mappingsAt "submissions").map SubmissionReport.tolerated
    statistics := ((entries.get? "stats").bind Data.entries?).map Statistics.tolerated }

/-- The faults of a document, in the order in which it is read. -/
def faults (data : Data) : List Fault :=
  let entries := entriesOf data
  (entries.mappingsAt "submissions").flatMap SubmissionReport.faults ++
    (entries.faultsAt "schema_version" Data.integerFaults ++
      ((entries.get? "stats").bind Data.entries?).elim [] Statistics.faults)

end Report

namespace Entries

variable {entries : Entries}

theorem entriesAt_eq_nil_or (entries : Entries) (key : String) :
    entries.entriesAt key = [] ∨ entries.get? key = some (.mapping (entries.entriesAt key)) := by
  rw [entriesAt]
  cases entries.get? key with
  | none => exact .inl rfl
  | some value =>
      cases value with
      | scalar value => exact .inl rfl
      | list items => exact .inl rfl
      | mapping inner => exact .inr rfl

/-- Mappings under a key are items of one list. -/
theorem exists_list_of_mem_mappingsAt {key : String} {inner : Entries}
    (mem : inner ∈ entries.mappingsAt key) :
    ∃ items, entries.get? key = some (.list items) ∧ .mapping inner ∈ items := by
  rw [mappingsAt] at mem
  cases found : entries.get? key with
  | none => simp [found] at mem
  | some value =>
      rw [found] at mem
      cases value with
      | scalar value => cases mem
      | mapping entries => cases mem
      | list items =>
          rcases List.mem_filterMap.mp mem with ⟨item, itemMem, same⟩
          cases Data.entries?_eq_some_iff.mp same
          exact ⟨items, rfl, itemMem⟩

theorem writable_entriesAt (writable : Writable (Data.mapping entries).integers) (key : String) :
    Writable (Data.mapping (entries.entriesAt key)).integers := by
  rcases entriesAt_eq_nil_or entries key with empty | found
  · rw [empty]
    exact Data.writable_nil
  · exact writable_of_get? writable found

theorem writable_of_mem_mappingsAt (writable : Writable (Data.mapping entries).integers)
    {key : String} {inner : Entries} (mem : inner ∈ entries.mappingsAt key) :
    Writable (Data.mapping inner).integers := by
  rcases exists_list_of_mem_mappingsAt mem with ⟨items, found, itemMem⟩
  exact Data.writable_list_iff.mp (writable_of_get? writable found) _ itemMem

theorem integerAt_yields (entries : Entries) (key : String) (default : ℤ) :
    Yields (Report.integerOr (Report.field entries key (.int default)) default)
      (entries.integerAt key default) (entries.faultsAt key Data.integerFaults) := by
  rw [Report.field, integerAt, held?, faultsAt]
  cases entries.get? key with
  | none => rfl
  | some value => exact value.toInteger?_yields.map (·.getD default)

theorem countAt_yields (entries : Entries) (wireName plainName : String) :
    Yields (Metrics.countIn entries wireName plainName) (entries.countAt wireName plainName)
      (entries.countFaultsAt wireName plainName) := by
  rw [Metrics.countIn, ← getEither?, countAt, countFaultsAt]
  cases entries.getEither? wireName plainName with
  | none => rfl
  | some value => exact value.toInteger?_yields.map fun denoted => max 0 (denoted.getD 0)

theorem scoreAt_yields (entries : Entries) (key : String) :
    Yields (Report.scoreIn entries key) (entries.scoreAt key)
      (entries.faultsAt key Data.floatFaults) := by
  rw [Report.scoreIn, Report.field, scoreAt, held?, faultsAt]
  cases entries.get? key with
  | none => rfl
  | some value => exact value.toFloat?_yields.map fun denoted =>
      Number.float (denoted.getD (.ofInt 50))

theorem entriesOf_field (entries : Entries) (key : String) :
    Report.entriesOf (Report.field entries key .null) = entries.entriesAt key := by
  rw [Report.field, entriesAt]
  cases entries.get? key <;> rfl

theorem mappingsOf_field (entries : Entries) (key : String) :
    Report.mappingsOf (Report.field entries key .null) = entries.mappingsAt key := by
  rw [Report.field, mappingsAt]
  cases entries.get? key <;> rfl

theorem isTruthy_field (entries : Entries) (key : String) :
    (Report.field entries key (.bool false)).isTruthy = entries.flagAt key := by
  rw [Report.field, flagAt]
  cases entries.get? key <;> rfl

section

variable (writable : Writable (Data.mapping entries).integers) (key : String)

include writable

theorem textAt_yields :
    Yields (Report.field entries key (.text "")).display (entries.textAt key) [] := by
  rw [Report.field, textAt]
  cases found : entries.get? key with
  | none => rfl
  | some value => exact Data.display_yields_of_writable (writable_of_get? writable found)

theorem optionalTextAt_yields :
    Yields (Report.optionalTextOf (Report.field entries key .null))
      (entries.optionalTextAt key) [] := by
  rw [Report.field, optionalTextAt]
  split
  · next absent =>
      rw [absent]
      rfl
  · next null =>
      rw [null]
      rfl
  · next value present found =>
      have shown := (Data.display_yields_of_writable (writable_of_get? writable found)).map some
      rw [found, Option.getD_some, Report.optionalTextOf]
      · exact shown
      · rintro rfl
        exact present rfl

theorem textsAt_yields :
    Yields (Report.textsOf (Report.field entries key .null)) (entries.textsAt key) [] := by
  rw [Report.field, textsAt]
  cases found : entries.get? key with
  | none => rfl
  | some value =>
      have listed := writable_of_get? writable found
      cases value with
      | scalar value => rfl
      | mapping entries => rfl
      | list items =>
          have each := Yields.mapM fun item mem =>
            Data.display_yields_of_writable (Data.writable_list_iff.mp listed item mem)
          rw [List.flatMap_eq_nil_iff.mpr fun _ _ => rfl] at each
          exact each

end

end Entries

section

variable {entries : Entries}

theorem Metrics.ofData_yields (entries : Entries) (key : String) :
    Yields (Metrics.ofData (Report.field entries key .null))
      (tolerated (entries.entriesAt key)) (faults (entries.entriesAt key)) := by
  have counted :
      ∀ inner, Yields (Metrics.ofData (.mapping inner)) (tolerated inner) (faults inner) := by
    intro inner
    have count := Entries.countAt_yields inner
    exact (count _ _).bind ((count _ _).bind ((count _ _).bind ((count _ _).bind ((count _ _).bind
      ((count _ _).map _)))))
  rw [Report.field, Entries.entriesAt]
  cases entries.get? key with
  | none => rfl
  | some value =>
      cases value with
      | scalar value => rfl
      | list items => rfl
      | mapping inner => exact counted inner

theorem Scores.scoresOf_yields (entries : Entries) (key : String) :
    Yields (Report.scoresOf (Report.field entries key .null)) (tolerated (entries.entriesAt key))
      (faults (entries.entriesAt key)) := by
  rw [← Entries.entriesOf_field]
  have score := Entries.scoreAt_yields (Report.entriesOf (Report.field entries key .null))
  exact (score _).bind ((score _).bind ((score _).bind ((score _).bind ((score _).map _))))

variable (writable : Writable (Data.mapping entries).integers)

include writable

theorem Feedback.feedbackOf_yields (key : String) :
    Yields (Report.feedbackOf (Report.field entries key .null))
      (tolerated (entries.entriesAt key)) [] := by
  have inner := Entries.writable_entriesAt writable key
  rw [← Entries.entriesOf_field] at inner ⊢
  have texts := Entries.textsAt_yields inner
  have text := Entries.textAt_yields inner
  exact (texts _).bind ((texts _).bind ((texts _).bind ((texts _).bind ((text _).map _))))

theorem SubmissionReport.submissionOf_yields :
    Yields (Report.submissionOf entries) (tolerated entries) (faults entries) := by
  have text := Entries.textAt_yields writable
  have family := Entries.optionalTextAt_yields writable "family"
  have metrics := Metrics.ofData_yields entries "static_analysis"
  have scores := Scores.scoresOf_yields entries "scores"
  have feedback := Feedback.feedbackOf_yields writable "feedback"
  have integer := fun key => entries.integerAt_yields key 0
  rw [Report.submissionOf]
  simp only [Entries.isTruthy_field]
  exact (text "language").bind (family.bind (metrics.bind (scores.bind (feedback.bind
    ((integer "static_penalty").bind ((integer "dev_score").last ((text "label").bind
      ((text "submitted_at").map _))))))))

theorem Statistics.breakdownOf_yields (key : String) :
    Yields (Report.breakdownOf (Report.field entries key .null))
      ((entries.entriesAt key).map fun entry =>
        ((Data.scalar entry.1).shown, entry.2.integer?.getD 0))
      ((entries.entriesAt key).flatMap fun entry => entry.2.integerFaults) := by
  have inner := Entries.writable_entriesAt writable key
  rw [Report.breakdownOf, Entries.entriesOf_field]
  apply Yields.mapM
  rintro ⟨name, score⟩ mem
  have parts := Data.writable_mapping_iff.mp inner (name, score) mem
  have shown : Yields name.display (Data.scalar name).shown [] :=
    @Data.display_yields_of_writable (.scalar name) parts.1
  exact shown.bind ((score.toInteger?_yields.map (·.getD 0)).map _)

theorem Statistics.statisticsOf_yields :
    Yields (Report.statisticsOf (.mapping entries)) (some (tolerated entries))
      (faults entries) := by
  have integer := fun key => Entries.integerAt_yields entries key 0
  have weakest := Entries.optionalTextAt_yields writable "weakest_skill"
  have breakdown := breakdownOf_yields writable "score_breakdown"
  rw [Report.statisticsOf.eq_def]
  simp only [Entries.mappingsOf_field]
  exact (integer "total_submissions").bind ((integer "average_dev_score").bind
    ((integer "latest_dev_score").bind ((integer "improvement").bind (weakest.bind
      (breakdown.map _)))))

end

namespace Report

theorem statistics_yields {entries : Entries} (writable : Writable (Data.mapping entries).integers)
    (key : String) :
    Yields (statisticsOf (field entries key .null))
      (((entries.get? key).bind Data.entries?).map Statistics.tolerated)
      (((entries.get? key).bind Data.entries?).elim [] Statistics.faults) := by
  rw [field]
  cases found : entries.get? key with
  | none => rfl
  | some value =>
      have inner := Entries.writable_of_get? writable found
      cases value with
      | scalar value => rfl
      | list items => rfl
      | mapping entries => exact Statistics.statisticsOf_yields inner

theorem writable_entriesOf {data : Data} (writable : Writable data.integers) :
    Writable (Data.mapping (entriesOf data)).integers := by
  cases data with
  | scalar value => exact Data.writable_nil
  | list items => exact Data.writable_nil
  | mapping entries => exact writable

theorem ofData_yields {data : Data} (writable : Writable data.integers) :
    Yields (ofData data) (tolerated data) (faults data) := by
  have whole := writable_entriesOf writable
  have submissions :=
    Yields.mapM fun entries (mem : entries ∈ (entriesOf data).mappingsAt "submissions") =>
    SubmissionReport.submissionOf_yields (Entries.writable_of_mem_mappingsAt whole mem)
  have version := Entries.integerAt_yields (entriesOf data) "schema_version" Scorecard.schemaVersion
  have generatedAt := Entries.textAt_yields whole "generated_at"
  have statistics := statistics_yields whole "stats"
  rw [ofData]
  simp only [Entries.mappingsOf_field]
  exact submissions.bind (version.bind (generatedAt.bind (statistics.map _)))

end Report

namespace Entries

variable {entries : Entries} {fault : Fault} {key : String}

theorem explains_of_mem_countFaultsAt {wireName plainName : String}
    (mem : fault ∈ entries.countFaultsAt wireName plainName) :
    (Data.mapping entries).Explains fault := by
  rw [countFaultsAt] at mem
  cases found : entries.getEither? wireName plainName with
  | none => simp [found] at mem
  | some value =>
      rw [found] at mem
      rcases exists_get?_of_orElse found with ⟨key, present⟩
      exact explains_of_get? present (Data.explains_of_mem_integerFaults value mem)

theorem explains_of_entriesAt (explains : (Data.mapping (entries.entriesAt key)).Explains fault) :
    (Data.mapping entries).Explains fault := by
  rcases entriesAt_eq_nil_or entries key with empty | found
  · rw [empty] at explains
    exact absurd explains Data.not_explains_nil
  · exact explains_of_get? found explains

theorem explains_of_mappingsAt {inner : Entries} (mem : inner ∈ entries.mappingsAt key)
    (explains : (Data.mapping inner).Explains fault) : (Data.mapping entries).Explains fault := by
  rcases exists_list_of_mem_mappingsAt mem with ⟨items, found, itemMem⟩
  exact explains_of_get? found (.item itemMem explains)

end Entries

section

variable {entries : Entries} {fault : Fault}

theorem Metrics.explains_of_mem_faults (mem : fault ∈ faults entries) :
    (Data.mapping entries).Explains fault := by
  simp only [faults, List.mem_append] at mem
  rcases mem with mem | mem | mem | mem | mem | mem <;>
    exact Entries.explains_of_mem_countFaultsAt mem

theorem Scores.explains_of_mem_faults (mem : fault ∈ faults entries) :
    (Data.mapping entries).Explains fault := by
  simp only [faults, List.mem_append] at mem
  rcases mem with mem | mem | mem | mem | mem <;>
    exact Entries.explains_of_mem_faultsAt Data.explains_of_mem_floatFaults mem

theorem SubmissionReport.explains_of_mem_faults (mem : fault ∈ faults entries) :
    (Data.mapping entries).Explains fault := by
  simp only [faults, List.mem_append] at mem
  rcases mem with mem | mem | mem | mem
  · exact Entries.explains_of_entriesAt (Metrics.explains_of_mem_faults mem)
  · exact Entries.explains_of_entriesAt (Scores.explains_of_mem_faults mem)
  · exact Entries.explains_of_mem_faultsAt Data.explains_of_mem_integerFaults mem
  · exact Entries.explains_of_mem_faultsAt Data.explains_of_mem_integerFaults mem

theorem Statistics.explains_of_mem_faults (mem : fault ∈ faults entries) :
    (Data.mapping entries).Explains fault := by
  simp only [faults, List.mem_append] at mem
  rcases mem with mem | mem | mem | mem | mem
  · exact Entries.explains_of_mem_faultsAt Data.explains_of_mem_integerFaults mem
  · exact Entries.explains_of_mem_faultsAt Data.explains_of_mem_integerFaults mem
  · exact Entries.explains_of_mem_faultsAt Data.explains_of_mem_integerFaults mem
  · exact Entries.explains_of_mem_faultsAt Data.explains_of_mem_integerFaults mem
  · rcases List.mem_flatMap.mp mem with ⟨entry, entryMem, mem⟩
    exact Entries.explains_of_entriesAt (.entry entryMem (Data.explains_of_mem_integerFaults _ mem))

end

namespace Report

theorem explains_of_entriesOf {data : Data} {fault : Fault}
    (explains : (Data.mapping (entriesOf data)).Explains fault) : data.Explains fault := by
  cases data with
  | scalar value => exact absurd explains Data.not_explains_nil
  | list items => exact absurd explains Data.not_explains_nil
  | mapping entries => exact explains

/-- Every fault of a document is about a number in it. -/
theorem explains_of_mem_faults {data : Data} {fault : Fault} (mem : fault ∈ faults data) :
    data.Explains fault := by
  apply explains_of_entriesOf
  simp only [faults, List.mem_append] at mem
  rcases mem with mem | mem | mem
  · rcases List.mem_flatMap.mp mem with ⟨entries, entriesMem, mem⟩
    exact Entries.explains_of_mappingsAt entriesMem (SubmissionReport.explains_of_mem_faults mem)
  · exact Entries.explains_of_mem_faultsAt Data.explains_of_mem_integerFaults mem
  · cases found : (entriesOf data).get? "stats" with
    | none => simp [found] at mem
    | some value =>
        rw [found] at mem
        cases value with
        | scalar value => cases mem
        | list items => cases mem
        | mapping entries =>
            exact Entries.explains_of_get? found (Statistics.explains_of_mem_faults mem)

theorem read_eq_ofData {tree : FileTree} {path : Path} {text : List Char} {data : Data}
    (readable : tree.readText path = .ok text)
    (decoded : Json.decode (String.ofList text) = .ok data) : read tree path = ofData data := by
  rw [read, readable]
  change decode (String.ofList text) = _
  rw [decode, decoded]
  rfl

/-- A file whose text is a document is read as the tolerant reader reads it, unless a field of the
document is a fault: then the first such field is the answer. The fault is about an infinity or an
integer beyond the floats, so a document without them is always read. -/
theorem read_tolerated {tree : FileTree} {path : Path} {text : List Char} {data : Data}
    (readable : tree.readText path = .ok text)
    (decoded : Json.decode (String.ofList text) = .ok data) :
    Yields (read tree path) (tolerated data) (faults data) ∧
      ∀ fault ∈ faults data, data.Explains fault := by
  constructor
  · rw [read_eq_ofData readable decoded]
    exact ofData_yields (Json.writable_of_decode decoded)
  · exact fun fault mem => explains_of_mem_faults mem

/-- A tree with a report of the given text. -/
def treeWith (text : String) : FileTree :=
  ⟨[], [(["report.json"], .file (Utf8.encode text.toList) 0)]⟩

/-- A text with fields of other kinds than they should be. -/
def mistypedText : String :=
  "\x7b\"schema_version\": null, \"submissions\": [5, \x7b\"label\": 1, \"dev_score\": \"7\", " ++
    "\"scores\": \x7b\"security\": []\x7d\x7d], \"stats\": \x7b\"improvement\": NaN\x7d\x7d"

/-- Fields of other kinds have their defaults or are shown as texts. -/
theorem read_tolerated_mistyped :
    ∃ text data, (treeWith mistypedText).readText (.ofString "report.json") = .ok text ∧
      Json.decode (String.ofList text) = .ok data ∧
      read (treeWith mistypedText) (.ofString "report.json") = .ok (tolerated data) ∧
      (tolerated data).schemaVersion = 1 ∧
      (tolerated data).submissions.map (fun submission => (submission.label,
        submission.result.devScore, submission.result.scores.security)) =
          [("1", 7, .float (.ofInt 50))] ∧
      (tolerated data).statistics.map Statistics.improvement = some 0 := by
  have readable : (treeWith mistypedText).readText (.ofString "report.json") =
      .ok mistypedText.toList := by
    decide +kernel
  have checked : ∃ data, Json.decode (String.ofList mistypedText.toList) = .ok data ∧
      faults data = [] ∧ (tolerated data).schemaVersion = 1 ∧
      (tolerated data).submissions.map (fun submission => (submission.label,
        submission.result.devScore, submission.result.scores.security)) =
          [("1", 7, .float (.ofInt 50))] ∧
      (tolerated data).statistics.map Statistics.improvement = some 0 := by
    decide +kernel
  rcases checked with ⟨data, decoded, faultless, shown⟩
  have returned := (read_tolerated readable decoded).1.returned_iff.mpr faultless
  exact ⟨_, data, readable, decoded, returned, shown⟩

/-- A text with an infinity for its version. -/
def endlessText : String :=
  "\x7b\"schema_version\": Infinity\x7d"

/-- An infinity has no integer part, but it has no default either. -/
theorem read_endless :
    read (treeWith endlessText) (.ofString "report.json") = .error .infinityToInteger ∧
      ∃ text data, (treeWith endlessText).readText (.ofString "report.json") = .ok text ∧
        Json.decode (String.ofList text) = .ok data ∧ (tolerated data).schemaVersion = 1 := by
  have readable : (treeWith endlessText).readText (.ofString "report.json") =
      .ok endlessText.toList := by
    decide +kernel
  have checked : ∃ data, Json.decode (String.ofList endlessText.toList) = .ok data ∧
      faults data = [.infinityToInteger] ∧ (tolerated data).schemaVersion = 1 := by
    decide +kernel
  rcases checked with ⟨data, decoded, faulty, version⟩
  have failed := ofData_yields (Json.writable_of_decode decoded)
  rw [faulty] at failed
  refine ⟨?_, _, data, readable, decoded, version⟩
  rw [read_eq_ofData readable decoded]
  exact failed

end Report

end Scorecard
