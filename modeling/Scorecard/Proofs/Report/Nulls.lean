import Scorecard.Proofs.Edits
import Scorecard.Proofs.Except
import Scorecard.Report.Reader

/-!
# Null in place of a value

A field of a report that is missing has a default, and for most fields a null has the same default.
There are exceptions. A text is whatever shows the value that is there, and what shows a null is a
word of its own. A count that is null under its first name is not looked for under the second. And
two mappings in the statistics have no fields: among the rounded scores a null is a score of zero,
and the results of the trend are kept as they are.

Which reader meets a null depends on the place of the document at which it stands. Two edits of one
place go together if this reader does not tell them apart, and then the reader of reports does not
either.
-/

namespace Scorecard

namespace Report

open Entries

/-- A place of a document at which a mapping is read. -/
inductive Place where
  | report
  | submission (index : ℕ)
  | analysis (index : ℕ)
  | scores (index : ℕ)
  | feedback (index : ℕ)
  | statistics
  | breakdown
  | trend (index : ℕ)
deriving DecidableEq

/-- The names of the counts, on the wire and in snake case. -/
def countNames : List (String × String) :=
  [("nestedLoops", "nested_loops"), ("consoleLogs", "console_logs"),
    ("longFunctions", "long_functions"), ("securityRisks", "security_risks"),
    ("poorNaming", "poor_naming"), ("missingErrorHandling", "missing_error_handling")]

namespace Place

/-- The document with one item of its submissions changed. -/
def inSubmission (index : ℕ) (change : Data → Data) : Data → Data :=
  Data.editKey "submissions" (Data.editItem index change)

/-- The document with one of the mappings of its list edited. -/
def inTrend (index : ℕ) (change : Entries → Entries) : Data → Data
  | .list items => .list (Data.editMapping change index items)
  | other => other

/-- The document with the mapping at a place edited. -/
def edit (place : Place) (change : Entries → Entries) : Data → Data :=
  match place with
  | .report => Data.editEntries change
  | .submission index => inSubmission index (Data.editEntries change)
  | .analysis index => inSubmission index (Data.editKey "static_analysis" (Data.editEntries change))
  | .scores index => inSubmission index (Data.editKey "scores" (Data.editEntries change))
  | .feedback index => inSubmission index (Data.editKey "feedback" (Data.editEntries change))
  | .statistics => Data.editKey "stats" (Data.editEntries change)
  | .breakdown => Data.editKey "stats" (Data.editKey "score_breakdown" (Data.editEntries change))
  | .trend index => Data.editKey "stats" (Data.editKey "recent_trend" (inTrend index change))

/-- Whether the mapping at a place is read field by field. -/
def hasFields : Place → Bool
  | .breakdown | .trend _ => false
  | _ => true

/-- The names of the texts at a place that are not optional. -/
def textNames : Place → List String
  | .report => ["generated_at"]
  | .submission _ => ["label", "submitted_at", "language"]
  | .feedback _ => ["detailedAnalysis"]
  | _ => []

/-- The names that are not asked for once a key is present. -/
def hiddenBy (key : String) : Place → List String
  | .analysis _ => (countNames.filter fun names => names.1 = key).map (·.2)
  | _ => []

/-- Whether the reader of a place cannot tell two edits apart. -/
def ReadsAlike (place : Place) (change other : Entries → Entries) : Prop :=
  ∀ entries, match place with
    | .report => ofData (.mapping (change entries)) = ofData (.mapping (other entries))
    | .submission _ => submissionOf (change entries) = submissionOf (other entries)
    | .analysis _ =>
        Metrics.ofData (.mapping (change entries)) = Metrics.ofData (.mapping (other entries))
    | .scores _ => scoresOf (.mapping (change entries)) = scoresOf (.mapping (other entries))
    | .feedback _ => feedbackOf (.mapping (change entries)) = feedbackOf (.mapping (other entries))
    | .statistics =>
        statisticsOf (.mapping (change entries)) = statisticsOf (.mapping (other entries))
    | .breakdown => breakdownOf (.mapping (change entries)) = breakdownOf (.mapping (other entries))
    | .trend _ => change entries = other entries

end Place

section

variable {left right : Entries}

theorem integerOr_field (entries : Entries) (name : String) (default : ℤ) :
    integerOr (field entries name (.int default)) default =
      integerOr (field entries name .null) default := by
  rw [field, field]
  cases entries.get? name <;> rfl

theorem isTruthy_field_false (entries : Entries) (name : String) :
    (field entries name (.bool false)).isTruthy = (field entries name .null).isTruthy := by
  rw [field, field]
  cases entries.get? name <;> rfl

theorem submissionOf_congr
    (texts : ∀ name ∈ ["label", "submitted_at", "language"],
      (field left name (.text "")).display = (field right name (.text "")).display)
    (plain : ∀ name ∈ ["family", "static_penalty", "dev_score", "interview_mode", "fallback"],
      field left name .null = field right name .null)
    (analysis : Metrics.ofData (field left "static_analysis" .null) =
      Metrics.ofData (field right "static_analysis" .null))
    (scores : scoresOf (field left "scores" .null) = scoresOf (field right "scores" .null))
    (feedback : feedbackOf (field left "feedback" .null) =
      feedbackOf (field right "feedback" .null)) :
    submissionOf left = submissionOf right := by
  simp only [List.forall_mem_cons] at texts plain
  rcases texts with ⟨label, submittedAt, language, _⟩
  rcases plain with ⟨family, staticPenalty, devScore, interviewMode, fallback, _⟩
  simp only [submissionOf, integerOr_field, isTruthy_field_false, label, submittedAt,
    language, family, staticPenalty, devScore, interviewMode, fallback, analysis, scores, feedback]

theorem statisticsOf_congr
    (plain : ∀ name ∈ ["total_submissions", "average_dev_score", "latest_dev_score", "improvement",
      "weakest_skill", "recent_trend"], field left name .null = field right name .null)
    (breakdown : breakdownOf (field left "score_breakdown" .null) =
      breakdownOf (field right "score_breakdown" .null)) :
    statisticsOf (.mapping left) = statisticsOf (.mapping right) := by
  simp only [List.forall_mem_cons] at plain
  rcases plain with ⟨total, average, latest, improvement, weakest, trend, _⟩
  simp only [statisticsOf, integerOr_field, total, average, latest, improvement, weakest, trend,
    breakdown]

theorem ofData_congr
    (version : field left "schema_version" .null = field right "schema_version" .null)
    (generatedAt : (field left "generated_at" (.text "")).display =
      (field right "generated_at" (.text "")).display)
    (submissions : (mappingsOf (field left "submissions" .null)).mapM submissionOf =
      (mappingsOf (field right "submissions" .null)).mapM submissionOf)
    (statistics : statisticsOf (field left "stats" .null) =
      statisticsOf (field right "stats" .null)) :
    ofData (.mapping left) = ofData (.mapping right) := by
  simp only [ofData, entriesOf, Data.entries?, Option.getD_some, integerOr_field, version,
    generatedAt, submissions, statistics]

end

/-- The result that an item of a list of submissions is read as; what is no mapping is left out. -/
def submission? (item : Data) : Option (Except Fault SubmissionReport) :=
  item.entries?.map submissionOf

theorem mapM_submissionOf (items : List Data) :
    (mappingsOf (.list items)).mapM submissionOf =
      ((items.map submission?).filterMap id).mapM id := by
  rw [List.filterMap_map, Function.id_comp]
  change _ = (items.filterMap fun item => item.entries?.map submissionOf).mapM id
  rw [mappingsOf, ← List.map_filterMap, List.mapM_map, Function.id_comp]

theorem editEntries_congr {γ : Type} (read : Data → γ) {change other : Entries → Entries}
    (alike : ∀ entries, read (.mapping (change entries)) = read (.mapping (other entries)))
    (data : Data) : read (data.editEntries change) = read (data.editEntries other) := by
  cases data with
  | mapping entries => exact alike entries
  | scalar value => rfl
  | list items => rfl

section

variable {change other : Data → Data} {name : String}

theorem field_modify_of_ne {asked : String} (different : asked ≠ name) (entries : Entries)
    (default : Data) :
    field (entries.modify name change) asked default = field entries asked default := by
  rw [field, field, get?_modify_of_ne different]

theorem field_modify_self {γ : Type} (read : Data → γ)
    (alike : ∀ value, read (change value) = read (other value)) (entries : Entries)
    (default : Data) :
    read (field (entries.modify name change) name default) =
      read (field (entries.modify name other) name default) := by
  simp only [field, get?_modify_self]
  cases entries.get? name with
  | none => rfl
  | some value => exact alike value

/-- A change of one part of a submission shows in its result only as far as it shows in that
part. -/
theorem submissionOf_modify (part : name ∈ ["static_analysis", "scores", "feedback"])
    (analysis : name = "static_analysis" →
      ∀ value, Metrics.ofData (change value) = Metrics.ofData (other value))
    (scores : name = "scores" → ∀ value, scoresOf (change value) = scoresOf (other value))
    (feedback : name = "feedback" → ∀ value, feedbackOf (change value) = feedbackOf (other value))
    (entries : Entries) :
    submissionOf (entries.modify name change) = submissionOf (entries.modify name other) := by
  have different :
      ∀ asked ∈ ["label", "submitted_at", "language", "family", "static_penalty", "dev_score",
        "interview_mode", "fallback"], asked ≠ name := by
    rintro asked mem rfl
    simp at part mem
    rcases part with rfl | rfl | rfl <;> simp at mem
  apply submissionOf_congr
  · intro asked mem
    have others := different asked (List.mem_append_left _ mem)
    rw [field_modify_of_ne others, field_modify_of_ne others]
  · intro asked mem
    have others := different asked (List.mem_append_right ["label", "submitted_at", "language"] mem)
    rw [field_modify_of_ne others, field_modify_of_ne others]
  · by_cases same : name = "static_analysis"
    · subst same
      exact field_modify_self Metrics.ofData (analysis rfl) entries .null
    · rw [field_modify_of_ne (Ne.symm same), field_modify_of_ne (Ne.symm same)]
  · by_cases same : name = "scores"
    · subst same
      exact field_modify_self scoresOf (scores rfl) entries .null
    · rw [field_modify_of_ne (Ne.symm same), field_modify_of_ne (Ne.symm same)]
  · by_cases same : name = "feedback"
    · subst same
      exact field_modify_self feedbackOf (feedback rfl) entries .null
    · rw [field_modify_of_ne (Ne.symm same), field_modify_of_ne (Ne.symm same)]

theorem map_modify_congr {α β : Type} (read : α → β) {change other : α → α}
    (alike : ∀ item, read (change item) = read (other item)) (items : List α) (index : ℕ) :
    (items.modify index change).map read = (items.modify index other).map read := by
  apply List.ext_getElem?
  intro place
  rw [List.getElem?_map, List.getElem?_map, List.getElem?_modify, List.getElem?_modify]
  cases items[place]? with
  | none => rfl
  | some item =>
      apply congrArg some
      change read (if index = place then change item else item) =
        read (if index = place then other item else item)
      split
      · exact alike item
      · rfl

theorem ofData_inSubmission (index : ℕ)
    (alike : ∀ item, submission? (change item) = submission? (other item)) (data : Data) :
    ofData (Place.inSubmission index change data) =
      ofData (Place.inSubmission index other data) := by
  apply editEntries_congr ofData
  intro entries
  apply ofData_congr
  · rw [field_modify_of_ne (by decide), field_modify_of_ne (by decide)]
  · rw [field_modify_of_ne (by decide), field_modify_of_ne (by decide)]
  · apply field_modify_self fun value => (mappingsOf value).mapM submissionOf
    intro value
    cases value with
    | scalar value => rfl
    | mapping entries => rfl
    | list items =>
        change (mappingsOf (.list (items.modify index change))).mapM submissionOf =
          (mappingsOf (.list (items.modify index other))).mapM submissionOf
        rw [mapM_submissionOf, mapM_submissionOf, map_modify_congr submission? alike]
  · rw [field_modify_of_ne (by decide), field_modify_of_ne (by decide)]

theorem ofData_editStatistics
    (alike : ∀ value, statisticsOf (change value) = statisticsOf (other value)) (data : Data) :
    ofData (data.editKey "stats" change) = ofData (data.editKey "stats" other) := by
  apply editEntries_congr ofData
  intro entries
  apply ofData_congr
  · rw [field_modify_of_ne (by decide), field_modify_of_ne (by decide)]
  · rw [field_modify_of_ne (by decide), field_modify_of_ne (by decide)]
  · rw [field_modify_of_ne (by decide), field_modify_of_ne (by decide)]
  · exact field_modify_self statisticsOf alike entries .null

end

/-- What the reader of a place does not tell apart, the reader of reports does not either. -/
theorem ofData_edit {place : Place} {change other : Entries → Entries}
    (alike : place.ReadsAlike change other) (data : Data) :
    ofData (place.edit change data) = ofData (place.edit other data) := by
  cases place with
  | report => exact editEntries_congr ofData alike data
  | submission index =>
      apply ofData_inSubmission
      apply editEntries_congr
      intro entries
      exact congrArg some (alike entries)
  | analysis index =>
      apply ofData_inSubmission
      apply editEntries_congr
      intro entries
      apply congrArg some
      apply submissionOf_modify (by simp) _ (by simp) (by simp)
      exact fun _ => editEntries_congr Metrics.ofData alike
  | scores index =>
      apply ofData_inSubmission
      apply editEntries_congr
      intro entries
      apply congrArg some
      apply submissionOf_modify (by simp) (by simp) _ (by simp)
      exact fun _ => editEntries_congr scoresOf alike
  | feedback index =>
      apply ofData_inSubmission
      apply editEntries_congr
      intro entries
      apply congrArg some
      apply submissionOf_modify (by simp) (by simp) (by simp)
      exact fun _ => editEntries_congr feedbackOf alike
  | statistics => exact ofData_editStatistics (editEntries_congr statisticsOf alike) data
  | breakdown =>
      apply ofData_editStatistics
      apply editEntries_congr
      intro entries
      apply statisticsOf_congr
      · intro asked mem
        have different : asked ≠ "score_breakdown" := by
          rintro rfl
          simp at mem
        rw [field_modify_of_ne different, field_modify_of_ne different]
      · exact field_modify_self breakdownOf (editEntries_congr breakdownOf alike) entries .null
  | trend index =>
      obtain rfl : change = other := funext alike
      rfl

/-- The statistics with one of the results of the trend edited. -/
def Statistics.editTrend (index : ℕ) (change : Entries → Entries) (statistics : Statistics) :
    Statistics :=
  { statistics with recentTrend := statistics.recentTrend.modify index change }

/-- The report with one of the results of the trend edited. -/
def editTrend (index : ℕ) (change : Entries → Entries) (report : Report) : Report :=
  { report with statistics := report.statistics.map (Statistics.editTrend index change) }

section

variable (index : ℕ) (change : Entries → Entries)

theorem mappingsOf_inTrend (value : Data) :
    mappingsOf (Place.inTrend index change value) = (mappingsOf value).modify index change := by
  have mapping : ∀ entries items, mappingsOf (.list (.mapping entries :: items)) =
      entries :: mappingsOf (.list items) := fun _ _ => rfl
  cases value with
  | scalar value => simp [Place.inTrend, mappingsOf]
  | mapping entries => simp [Place.inTrend, mappingsOf]
  | list items =>
      rw [Place.inTrend]
      induction items generalizing index with
      | nil => simp [Data.editMapping, mappingsOf]
      | cons item items ih =>
          cases item with
          | scalar value => exact ih index
          | list inner => exact ih index
          | mapping entries =>
              cases index with
              | zero => rw [Data.editMapping, mapping, mapping, List.modify_zero_cons]
              | succ index => rw [Data.editMapping, mapping, mapping, ih, List.modify_succ_cons]

theorem statisticsOf_inTrend (value : Data) :
    statisticsOf (value.editKey "recent_trend" (Place.inTrend index change)) =
      Option.map (Statistics.editTrend index change) <$> statisticsOf value := by
  cases value with
  | scalar value => rfl
  | list items => rfl
  | mapping entries =>
      have trend :
          mappingsOf
            (field (Entries.modify entries "recent_trend" (Place.inTrend index change))
              "recent_trend" .null) =
                (mappingsOf (field entries "recent_trend" .null)).modify index change := by
        rw [field, field, get?_modify_self]
        cases Entries.get? entries "recent_trend" with
        | none => simp [mappingsOf]
        | some value => exact mappingsOf_inTrend index change value
      rw [Data.editKey, Data.editEntries]
      simp only [statisticsOf, map_bind, map_pure, trend]
      simp only [field_modify_of_ne, ne_eq, String.reduceEq, not_false_eq_true]
      rfl

/-- A change of one of the results of the trend is a change of the same result in the report. -/
theorem ofData_inTrend (data : Data) :
    ofData ((Place.trend index).edit change data) = editTrend index change <$> ofData data := by
  cases data with
  | scalar value => rfl
  | list items => rfl
  | mapping entries =>
      have statistics : statisticsOf (field (Entries.modify entries "stats"
          (Data.editKey "recent_trend" (Place.inTrend index change))) "stats" .null) =
            Option.map (Statistics.editTrend index change) <$>
            statisticsOf (field entries "stats" .null) := by
        rw [field, field, get?_modify_self]
        cases Entries.get? entries "stats" with
        | none => rfl
        | some value => exact statisticsOf_inTrend index change value
      rw [Place.edit, Data.editKey, Data.editEntries]
      simp only [ofData, entriesOf, Data.entries?, Option.getD_some, map_bind, map_pure, statistics]
      simp only [field_modify_of_ne, ne_eq, String.reduceEq, not_false_eq_true, bind_map_left]
      rfl

end

/-- Entries that a reader of the given texts cannot tell apart. -/
structure Alike (texts : List String) (left right : Entries) : Prop where
  plain : ∀ name ∉ texts, field left name .null = field right name .null
  text :
    ∀ name ∈ texts, (field left name (.text "")).display = (field right name (.text "")).display

section

variable {texts : List String} {key : String} {left right : Entries}

theorem alike_of_others (others : ∀ name ≠ key, left.get? name = right.get? name)
    (plain : key ∉ texts → field left key .null = field right key .null)
    (text : key ∈ texts →
      (field left key (.text "")).display = (field right key (.text "")).display) :
    Alike texts left right := by
  constructor
  · intro name notText
    by_cases same : name = key
    · subst same
      exact plain notText
    · rw [field, field, others name same]
  · intro name mem
    by_cases same : name = key
    · subst same
      exact text mem
    · rw [field, field, others name same]

theorem alike_null_without (notText : key ∉ texts) (entries : Entries) :
    Alike texts (entries.insert (.text key) .null) (entries.without [key]) := by
  apply alike_of_others
  · intro name different
    rw [get?_insert_of_ne different, get?_without_of_notMem (by simpa using different)]
  · intro _
    rw [field, field, get?_insert_self, get?_without_of_mem (List.mem_singleton_self key)]
    rfl
  · exact fun mem => absurd mem notText

theorem alike_null_text (mem : key ∈ texts) (entries : Entries) :
    Alike texts (entries.insert (.text key) .null) (entries.insert (.text key) (.text "None")) := by
  apply alike_of_others
  · intro name different
    rw [get?_insert_of_ne different, get?_insert_of_ne different]
  · exact fun notText => absurd mem notText
  · intro _
    rw [field, field, get?_insert_self, get?_insert_self]
    rfl

theorem alike_without_text (mem : key ∈ texts) (entries : Entries) :
    Alike texts (entries.without [key]) (entries.insert (.text key) (.text "")) := by
  apply alike_of_others
  · intro name different
    rw [get?_insert_of_ne different, get?_without_of_notMem (by simpa using different)]
  · exact fun notText => absurd mem notText
  · intro _
    rw [field, field, get?_insert_self, get?_without_of_mem (List.mem_singleton_self key)]
    rfl

theorem readsAlike_of_alike {place : Place} {change other : Entries → Entries}
    (notAnalysis : ∀ index, place ≠ .analysis index) (fields : place.hasFields = true)
    (alike : ∀ entries, Alike place.textNames (change entries) (other entries)) :
    place.ReadsAlike change other := by
  intro entries
  have plain := (alike entries).plain
  have text := (alike entries).text
  cases place with
  | analysis index => exact absurd rfl (notAnalysis index)
  | breakdown => cases fields
  | trend index => cases fields
  | report =>
      apply ofData_congr
      · exact plain _ (by decide)
      · exact text _ (by decide)
      · rw [plain _ (by decide)]
      · rw [plain _ (by decide)]
  | submission index =>
      apply submissionOf_congr text
      · intro name mem
        apply plain
        intro isText
        simp [Place.textNames] at mem isText
        rcases isText with rfl | rfl | rfl <;> simp at mem
      · rw [plain _ (by simp [Place.textNames])]
      · rw [plain _ (by simp [Place.textNames])]
      · rw [plain _ (by simp [Place.textNames])]
  | scores index =>
      have same : ∀ name, field (change entries) name .null = field (other entries) name .null :=
        fun name => plain name (by simp [Place.textNames])
      simp only [scoresOf, entriesOf, Data.entries?, Option.getD_some, scoreIn, same]
  | feedback index =>
      have same : ∀ name ≠ "detailedAnalysis",
          field (change entries) name .null = field (other entries) name .null :=
        fun name different => plain name (by simpa [Place.textNames] using different)
      have detail := text "detailedAnalysis" (by simp [Place.textNames])
      simp only [feedbackOf, entriesOf, Data.entries?, Option.getD_some, detail,
        same "strengths" (by decide), same "weaknesses" (by decide), same "suggestions" (by decide),
        same "interviewQuestions" (by decide)]
  | statistics =>
      apply statisticsOf_congr
      · exact fun name _ => plain name (by simp [Place.textNames])
      · rw [plain _ (by simp [Place.textNames])]

end

/-- A count that is null is zero, also where its second name has a value. -/
theorem countIn_null {names : String × String} (mem : names ∈ countNames) (entries : Entries)
    (key : String) (index : ℕ) :
    Metrics.countIn (entries.insert (.text key) .null) names.1 names.2 =
      Metrics.countIn (entries.without (key :: (Place.analysis index).hiddenBy key))
        names.1 names.2 := by
  have hidden : ∀ name, name ∈ (Place.analysis index).hiddenBy key ↔ (key, name) ∈ countNames := by
    intro name
    simp [Place.hiddenBy]
  have wire_shown : ∀ names ∈ countNames, ∀ others ∈ countNames, names.1 ≠ others.2 := by decide
  have plain_once : ∀ names ∈ countNames, ∀ others ∈ countNames, names.2 = others.2 →
      names.1 = others.1 := by
    decide
  rw [Metrics.countIn, Metrics.countIn]
  by_cases wire : names.1 = key
  · have plainHidden : names.2 ∈ key :: (Place.analysis index).hiddenBy key := by
      rw [List.mem_cons, hidden, ← wire]
      exact .inr mem
    rw [wire, get?_insert_self, get?_without_of_mem List.mem_cons_self,
      get?_without_of_mem plainHidden]
    rfl
  · have wireKept : names.1 ∉ key :: (Place.analysis index).hiddenBy key := by
      rw [List.mem_cons, hidden, not_or]
      exact ⟨wire, fun other => wire_shown names mem _ other rfl⟩
    rw [get?_insert_of_ne wire, get?_without_of_notMem wireKept]
    cases entries.get? names.1 with
    | some value => rfl
    | none =>
        by_cases plain : names.2 = key
        · rw [plain, get?_insert_self, get?_without_of_mem List.mem_cons_self]
          rfl
        · have plainKept : names.2 ∉ key :: (Place.analysis index).hiddenBy key := by
            rw [List.mem_cons, hidden, not_or]
            exact ⟨plain, fun other => wire (plain_once names mem _ other rfl)⟩
          rw [get?_insert_of_ne plain, get?_without_of_notMem plainKept]

theorem readsAlike_analysis (index : ℕ) (key : String) :
    (Place.analysis index).ReadsAlike (·.insert (.text key) .null)
      (·.without (key :: (Place.analysis index).hiddenBy key)) := by
  intro entries
  have count := fun names mem => @countIn_null names mem entries key index
  simp only [Metrics.ofData]
  rw [count ("nestedLoops", "nested_loops") (by decide),
    count ("consoleLogs", "console_logs") (by decide),
    count ("longFunctions", "long_functions") (by decide),
    count ("securityRisks", "security_risks") (by decide),
    count ("poorNaming", "poor_naming") (by decide),
    count ("missingErrorHandling", "missing_error_handling") (by decide)]

theorem readsAlike_breakdown (key : String) :
    Place.breakdown.ReadsAlike (·.insert (.text key) .null) (·.insert (.text key) (.int 0)) := by
  intro entries
  change (entries.insert (.text key) .null).mapM _ = (entries.insert (.text key) (.int 0)).mapM _
  induction entries with
  | nil => rfl
  | cons entry rest ih =>
      simp only [Entries.insert]
      split
      · simp only [List.mapM_cons]
        rfl
      · simp only [List.mapM_cons, ih]

/-- A null is read as a missing field, but for some keys. Under the name of a text it is the text
that shows a null, while a missing text is empty. Under the first name of a count it hides the
second name too. Among the rounded scores it is a score of zero, and in the trend it is kept. -/
theorem ofData_null (data : Data) (place : Place) (key : String) :
    (key ∈ place.textNames →
      ofData (place.edit (·.insert (.text key) .null) data) =
        ofData (place.edit (·.insert (.text key) (.text "None")) data) ∧
      ofData (place.edit (·.without [key]) data) =
        ofData (place.edit (·.insert (.text key) (.text "")) data)) ∧
    (place = .breakdown →
      ofData (place.edit (·.insert (.text key) .null) data) =
        ofData (place.edit (·.insert (.text key) (.int 0)) data)) ∧
    (∀ index, place = .trend index → ∀ change,
      ofData (place.edit change data) = editTrend index change <$> ofData data) ∧
    (place.hasFields = true → key ∉ place.textNames →
      ofData (place.edit (·.insert (.text key) .null) data) =
        ofData (place.edit (·.without (key :: place.hiddenBy key)) data)) := by
  refine ⟨?_, ?_, ?_, ?_⟩
  · intro isText
    have notAnalysis : ∀ index, place ≠ .analysis index := by
      rintro index rfl
      cases isText
    have fields : place.hasFields = true := by
      cases place <;> first | rfl | cases isText
    constructor
    · exact ofData_edit (readsAlike_of_alike notAnalysis fields (alike_null_text isText)) data
    · exact ofData_edit (readsAlike_of_alike notAnalysis fields (alike_without_text isText)) data
  · rintro rfl
    exact ofData_edit (readsAlike_breakdown key) data
  · rintro index rfl change
    exact ofData_inTrend index change data
  · intro fields notText
    apply ofData_edit
    cases place with
    | analysis index => exact readsAlike_analysis index key
    | breakdown => cases fields
    | trend index => cases fields
    | report => exact readsAlike_of_alike (by simp) rfl (alike_null_without notText)
    | submission index => exact readsAlike_of_alike (by simp) rfl (alike_null_without notText)
    | scores index => exact readsAlike_of_alike (by simp) rfl (alike_null_without notText)
    | feedback index => exact readsAlike_of_alike (by simp) rfl (alike_null_without notText)
    | statistics => exact readsAlike_of_alike (by simp) rfl (alike_null_without notText)

/-- A document with one submission, whose counts have names of both kinds, and with statistics. -/
def mixedDocument : Data :=
  .mapping [(.text "submissions", .list [.mapping [
      (.text "label", .text "a.py"),
      (.text "static_analysis",
        .mapping [(.text "nestedLoops", .int 4), (.text "nested_loops", .int 3)])]]),
    (.text "stats", .mapping [
      (.text "score_breakdown", .mapping [(.text "security", .int 50)]),
      (.text "recent_trend", .list [.mapping [(.text "label", .text "a.py")]])])]

/-- A null for the label is read as a word, one for a count as if neither of its names were there,
one for the score as if it were missing, one for a rounded score as zero, and one in the trend as
itself. -/
theorem ofData_null_mixed :
    ofData ((Place.submission 0).edit (·.insert (.text "label") .null) mixedDocument) =
        ofData ((Place.submission 0).edit (·.insert (.text "label") (.text "None")) mixedDocument) ∧
      ofData ((Place.analysis 0).edit (·.insert (.text "nestedLoops") .null) mixedDocument) =
        ofData ((Place.analysis 0).edit (·.without ["nestedLoops", "nested_loops"]) mixedDocument) ∧
      ofData ((Place.submission 0).edit (·.insert (.text "dev_score") .null) mixedDocument) =
        ofData ((Place.submission 0).edit (·.without ["dev_score"]) mixedDocument) ∧
      ofData (Place.breakdown.edit (·.insert (.text "security") .null) mixedDocument) =
        ofData (Place.breakdown.edit (·.insert (.text "security") (.int 0)) mixedDocument) ∧
      ofData ((Place.trend 0).edit (·.insert (.text "label") .null) mixedDocument) =
        editTrend 0 (·.insert (.text "label") .null) <$> ofData mixedDocument :=
  ⟨((ofData_null mixedDocument (.submission 0) "label").1 (by decide)).1,
    (ofData_null mixedDocument (.analysis 0) "nestedLoops").2.2.2 rfl (by decide),
    (ofData_null mixedDocument (.submission 0) "dev_score").2.2.2 rfl (by decide),
    (ofData_null mixedDocument .breakdown "security").2.1 rfl,
    (ofData_null mixedDocument (.trend 0) "label").2.2.1 0 rfl _⟩

/-- A null is not read as a missing field where it stands for a text or hides the second name of a
count. -/
theorem null_ne_missing :
    (ofData (Place.report.edit (·.insert (.text "generated_at") .null) mixedDocument)).map
        (·.generatedAt) = .ok "None" ∧
      (ofData (Place.report.edit (·.without ["generated_at"]) mixedDocument)).map
        (·.generatedAt) = .ok "" ∧
      (ofData ((Place.analysis 0).edit (·.insert (.text "nestedLoops") .null) mixedDocument)).map
        (fun report => report.submissions.map (·.result.metrics.nestedLoops)) = .ok [0] ∧
      (ofData ((Place.analysis 0).edit (·.without ["nestedLoops"]) mixedDocument)).map
        (fun report => report.submissions.map (·.result.metrics.nestedLoops)) = .ok [3] := by
  decide

end Report

end Scorecard
