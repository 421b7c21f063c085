import Scorecard.Proofs.Equality
import Scorecard.Proofs.Number.Range
import Scorecard.Proofs.Scoring.Monotone
import Scorecard.Report.Reader

/-!
# What a reader keeps

The document of a report is read field by field, and every reader changes what it does not take:
counts are made positive, scores become floats, values that denote nothing get a default. A report
is kept if none of this changes the value of a field. The reader of its document then gives an equal
report.
-/

namespace Scorecard

namespace Report

theorem get?_of_mem {entries : Entries} {key : String} {value : Data} (named : entries.Named)
    (mem : (.text key, value) ∈ entries) : entries.get? key = some value :=
  named.find?_eq mem

theorem field_of_mem {entries : Entries} {key : String} {value : Data} (named : entries.Named)
    (mem : (.text key, value) ∈ entries) (default : Data) : field entries key default = value := by
  rw [field, get?_of_mem named mem, Option.getD_some]

@[simp]
theorem entriesOf_mapping (entries : Entries) : entriesOf (.mapping entries) = entries := rfl

theorem integerOr_int (value default : ℤ) : integerOr (.int value) default = .ok value := rfl

theorem display_text (text : String) : (Data.text text).display = .ok text := rfl

theorem optionalTextOf_optionalText (text : Option String) :
    optionalTextOf (optionalText text) = .ok text := by
  cases text <;> rfl

theorem textsOf_textsData (texts : List String) :
    textsOf (Feedback.textsData texts) = .ok texts := by
  rw [Feedback.textsData, textsOf, mapM_eq_ok_iff, List.forall₂_map_left_iff, List.forall₂_same]
  exact fun text _ => display_text text

end Report

namespace Metrics

/-- Whether the counts are those that a reader gives: none is negative, and the last is at most
one. -/
structure Kept (metrics : Metrics) : Prop where
  nonneg : ∀ count ∈ metrics.named, 0 ≤ count.2
  missing_le : metrics.missingErrorHandling ≤ 1

variable {metrics : Metrics}

theorem named_entries (metrics : Metrics) :
    Entries.Named (metrics.named.map fun (name, count) => (.text name, .int count)) where
  texts := by simp [named]
  distinct := by simp [named]

theorem Kept.countIn_eq (kept : metrics.Kept) {count : String × ℤ} (mem : count ∈ metrics.named)
    (plainName : String) :
    countIn (metrics.named.map fun (name, count) => (.text name, .int count)) count.1 plainName =
      .ok count.2 := by
  have found := Report.get?_of_mem metrics.named_entries (List.mem_map_of_mem mem)
  simp only [countIn, found, Option.orElse_some, Option.getD_some]
  change Except.ok (max 0 count.2) = _
  rw [max_eq_right (kept.nonneg count mem)]

theorem ofData_toData (kept : metrics.Kept) : ofData metrics.toData = .ok metrics := by
  rcases metrics with ⟨nestedLoops, consoleLogs, longFunctions, securityRisks, poorNaming, missing⟩
  have missing_le : missing ≤ 1 := kept.missing_le
  have count : ∀ name value, (name, value) ∈ named
      ⟨nestedLoops, consoleLogs, longFunctions, securityRisks, poorNaming, missing⟩ → ∀ plainName,
        countIn
          ((named ⟨nestedLoops, consoleLogs, longFunctions, securityRisks, poorNaming, missing⟩).map
            fun (name, count) => (.text name, .int count)) name plainName = .ok value :=
    fun name value => @Kept.countIn_eq _ kept (name, value)
  rw [toData, ofData, count "nestedLoops" nestedLoops (by simp [named]),
    count "consoleLogs" consoleLogs (by simp [named]),
    count "longFunctions" longFunctions (by simp [named]),
    count "securityRisks" securityRisks (by simp [named]),
    count "poorNaming" poorNaming (by simp [named]),
    count "missingErrorHandling" missing (by simp [named])]
  simp only [bind, Except.bind, pure, Except.pure, min_eq_right missing_le]

theorem isJson_toData (metrics : Metrics) : metrics.toData.IsJson := by
  refine .mapping metrics.named_entries ?_
  intro entry mem
  rcases List.mem_map.mp mem with ⟨count, _, rfl⟩
  exact .scalar trivial

end Metrics

namespace Number

/-- Whether the float that a reader makes of the number equals it. -/
def Kept (number : Number) : Prop :=
  ∃ float, number.toFloat = .ok float ∧ number.equals (.float float) = true

theorem kept_float {value : Binary64} (isNumber : value ≠ .nan) : (float value).Kept :=
  ⟨value, rfl, Binary64.equals_self isNumber⟩

theorem kept_of_isScore {number : Number} (isScore : number.IsScore) : number.Kept := by
  cases number with
  | float value =>
      apply kept_float
      rintro rfl
      cases isScore.worth
  | int value =>
      have within := isScore.within
      rw [exactValue, quanta?, Option.getD_some] at within
      have small : |value| ≤ 2 ^ 53 := within.int_le.trans (by decide)
      have worth := Binary64.quanta?_ofInt small
      refine ⟨Binary64.ofInt value, floatOfInt_of_quanta? worth, ?_⟩
      rw [equals, Binary64.equalsInt, worth]
      exact beq_self_eq_true _

end Number

namespace Scores

/-- Whether every score is kept as a float. -/
def Kept (scores : Scores) : Prop :=
  ∀ score ∈ scores.named, score.2.Kept

theorem named_entries (scores : Scores) :
    Entries.Named (scores.named.map fun (name, score) => (.text name, .number score)) where
  texts := by simp [named]
  distinct := by simp [named]

theorem toFloat?_number {score : Number} {float : Binary64} (converts : score.toFloat = .ok float) :
    (Data.number score).toFloat? = .ok (some float) := by
  cases score with
  | float value =>
      cases converts
      rfl
  | int value =>
      rw [Number.toFloat] at converts
      rw [Data.number, Data.toFloat?, converts]
      rfl

theorem scoreIn_eq (scores : Scores) {score : String × Number} (mem : score ∈ scores.named)
    {float : Binary64} (converts : score.2.toFloat = .ok float) :
    Report.scoreIn (scores.named.map fun (name, score) => (.text name, .number score)) score.1 =
      .ok (.float float) := by
  have found := Report.field_of_mem scores.named_entries (List.mem_map_of_mem mem) .null
  rw [Report.scoreIn, found, toFloat?_number converts]
  rfl

theorem number_equals (left right : Number) :
    (Data.number left).equals (.number right) = left.equals right := by
  cases left <;> cases right <;> rfl

/-- The scores as floats, which is how they are read. -/
def floats (scores : Scores) : Scores where
  codeQuality := .float scores.codeQuality.nearest
  timeComplexity := .float scores.timeComplexity.nearest
  spaceComplexity := .float scores.spaceComplexity.nearest
  security := .float scores.security.nearest
  readability := .float scores.readability.nearest

theorem Kept.toFloat_eq {scores : Scores} (kept : scores.Kept) {score : String × Number}
    (mem : score ∈ scores.named) : score.2.toFloat = .ok score.2.nearest := by
  rcases kept score mem with ⟨float, converts, _⟩
  exact Number.toFloat_eq_nearest converts

theorem Kept.equals_nearest {scores : Scores} (kept : scores.Kept) {score : String × Number}
    (mem : score ∈ scores.named) : score.2.equals (.float score.2.nearest) = true := by
  rcases kept score mem with ⟨float, converts, same⟩
  cases converts.symm.trans (Number.toFloat_eq_nearest converts)
  exact same

theorem Kept.scoresOf_toData {scores : Scores} (kept : scores.Kept) :
    Report.scoresOf scores.toData = .ok scores.floats := by
  have score : ∀ score ∈ scores.named,
      Report.scoreIn (scores.named.map fun (name, score) => (.text name, .number score)) score.1 =
        .ok (.float score.2.nearest) :=
    fun score mem => scoreIn_eq scores mem (kept.toFloat_eq mem)
  rw [toData, Report.scoresOf, Report.entriesOf_mapping,
    score ("codeQuality", scores.codeQuality) (by simp [named]),
    score ("timeComplexity", scores.timeComplexity) (by simp [named]),
    score ("spaceComplexity", scores.spaceComplexity) (by simp [named]),
    score ("security", scores.security) (by simp [named]),
    score ("readability", scores.readability) (by simp [named])]
  rfl

/-- Kept scores have the values of the floats as which they are read. -/
theorem Kept.toData_equals_floats {scores : Scores} (kept : scores.Kept) :
    scores.toData.equals scores.floats.toData = true := by
  have same : ∀ score ∈ scores.named,
      (Data.number score.2).equals (.number (.float score.2.nearest)) = true :=
    fun score mem => (number_equals _ _).trans (kept.equals_nearest mem)
  apply Data.mapping_equals (named_entries _)
  refine .cons ⟨rfl, ?_⟩
    (.cons ⟨rfl, ?_⟩ (.cons ⟨rfl, ?_⟩ (.cons ⟨rfl, ?_⟩ (.cons ⟨rfl, ?_⟩ .nil))))
  · exact same ("codeQuality", scores.codeQuality) (by simp [named])
  · exact same ("timeComplexity", scores.timeComplexity) (by simp [named])
  · exact same ("spaceComplexity", scores.spaceComplexity) (by simp [named])
  · exact same ("security", scores.security) (by simp [named])
  · exact same ("readability", scores.readability) (by simp [named])

theorem isJson_toData (scores : Scores) : scores.toData.IsJson := by
  refine .mapping scores.named_entries ?_
  intro entry mem
  rcases List.mem_map.mp mem with ⟨⟨name, score⟩, _, rfl⟩
  cases score <;> exact .scalar trivial

end Scores

namespace Feedback

theorem named_entries (feedback : Feedback) : Entries.Named (Report.entriesOf feedback.toData) where
  texts := by simp [toData]
  distinct := by simp [toData]

theorem feedbackOf_toData (feedback : Feedback) :
    Report.feedbackOf feedback.toData = .ok feedback := by
  have field : ∀ key value, (.text key, value) ∈ Report.entriesOf feedback.toData → ∀ default,
      Report.field (Report.entriesOf feedback.toData) key default = value :=
    fun key value mem => Report.field_of_mem feedback.named_entries mem
  rw [Report.feedbackOf]
  rw [field "strengths" (textsData feedback.strengths) (by simp [toData]),
    field "weaknesses" (textsData feedback.weaknesses) (by simp [toData]),
    field "suggestions" (textsData feedback.suggestions) (by simp [toData]),
    field "interviewQuestions" (textsData feedback.interviewQuestions) (by simp [toData]),
    field "detailedAnalysis" (.text feedback.detailedAnalysis) (by simp [toData])]
  simp only [Report.textsOf_textsData, Report.display_text, bind, Except.bind, pure, Except.pure]

theorem isJson_textsData (texts : List String) : (textsData texts).IsJson := by
  refine .list ?_
  intro item mem
  rcases List.mem_map.mp mem with ⟨text, _, rfl⟩
  exact .scalar trivial

theorem isJson_toData (feedback : Feedback) : feedback.toData.IsJson := by
  refine .mapping feedback.named_entries ?_
  simp [isJson_textsData]

end Feedback

/-- Whether the reader of a result's document gives an equal result. -/
structure SubmissionReport.Kept (report : SubmissionReport) : Prop where
  metrics : report.result.metrics.Kept
  scores : report.result.scores.Kept
  base : ∃ base, report.result.scores.weightedBase = .ok base

namespace SubmissionReport

/-- The entries of a result's document. -/
def entries (report : SubmissionReport) (base : Binary64) : Entries :=
  let result := report.result
  [(.text "label", .text report.label),
    (.text "submitted_at", .text report.submittedAt),
    (.text "language", .text result.language),
    (.text "family", optionalText result.family),
    (.text "interview_mode", .bool result.interviewMode),
    (.text "static_analysis", result.metrics.toData),
    (.text "scores", result.scores.toData),
    (.text "feedback", result.feedback.toData),
    (.text "base_score", .float base),
    (.text "static_penalty", .int result.staticPenalty),
    (.text "applied_penalty", .int (appliedPoints result.staticPenalty)),
    (.text "dev_score", .int result.devScore),
    (.text "fallback", .bool result.fallback)]

theorem toData_eq {report : SubmissionReport} {base : Binary64}
    (based : report.result.scores.weightedBase = .ok base) :
    report.toData = .ok (.mapping (report.entries base)) := by
  rw [toData]
  simp only [based, bind, Except.bind, pure, Except.pure]
  rfl

theorem named_entries (report : SubmissionReport) (base : Binary64) :
    (report.entries base).Named where
  texts := by simp [entries]
  distinct := by simp [entries]

/-- The result as it is read, with floats for scores. -/
def reread (report : SubmissionReport) : SubmissionReport :=
  { report with result := { report.result with scores := report.result.scores.floats } }

/-- Where the metrics and the scores are kept, all of a result is. -/
theorem Kept.submissionOf_entries {report : SubmissionReport} (kept : report.Kept)
    (base : Binary64) : Report.submissionOf (report.entries base) = .ok report.reread := by
  have field : ∀ key value, (.text key, value) ∈ report.entries base → ∀ default,
      Report.field (report.entries base) key default = value :=
    fun key value mem => Report.field_of_mem (report.named_entries base) mem
  rw [Report.submissionOf,
    field "language" (.text report.result.language) (by simp [entries]),
    field "family" (optionalText report.result.family) (by simp [entries]),
    field "static_analysis" report.result.metrics.toData (by simp [entries]),
    field "scores" report.result.scores.toData (by simp [entries]),
    field "feedback" report.result.feedback.toData (by simp [entries]),
    field "static_penalty" (.int report.result.staticPenalty) (by simp [entries]),
    field "dev_score" (.int report.result.devScore) (by simp [entries]),
    field "label" (.text report.label) (by simp [entries]),
    field "submitted_at" (.text report.submittedAt) (by simp [entries]),
    field "interview_mode" (.bool report.result.interviewMode) (by simp [entries]),
    field "fallback" (.bool report.result.fallback) (by simp [entries])]
  simp only [Report.display_text, Report.optionalTextOf_optionalText,
    Metrics.ofData_toData kept.metrics, kept.scores.scoresOf_toData, Feedback.feedbackOf_toData,
    Report.integerOr_int, bind, Except.bind, pure, Except.pure]
  rfl

theorem Kept.equals_reread {report : SubmissionReport} (kept : report.Kept) :
    report.equals report.reread = true := by
  simp [equals, reread, kept.scores.toData_equals_floats]

theorem isJson_entries (report : SubmissionReport) (base : Binary64) :
    (Data.mapping (report.entries base)).IsJson := by
  refine .mapping (report.named_entries base) ?_
  have family : (optionalText report.result.family).IsJson := by
    cases report.result.family <;> exact .scalar trivial
  simp [entries, family, Metrics.isJson_toData, Scores.isJson_toData, Feedback.isJson_toData]

/-- The documents of kept results are read as these results with floats for scores. -/
theorem exists_documents {reports : List SubmissionReport}
    (kept : ∀ report ∈ reports, report.Kept) :
    ∃ documents : List Entries, reports.mapM toData = .ok (documents.map .mapping) ∧
      (∀ document ∈ documents, (Data.mapping document).IsJson) ∧
      documents.mapM Report.submissionOf = .ok (reports.map reread) := by
  induction reports with
  | nil => exact ⟨[], rfl, by simp, rfl⟩
  | cons report reports ih =>
      rw [List.forall_mem_cons] at kept
      rcases ih kept.2 with ⟨documents, written, areJson, read⟩
      rcases kept.1.base with ⟨base, based⟩
      refine ⟨report.entries base :: documents, ?_, ?_, ?_⟩
      · simp only [List.mapM_cons, toData_eq based, written, bind, Except.bind, pure, Except.pure,
          List.map_cons]
      · exact List.forall_mem_cons.mpr ⟨report.isJson_entries base, areJson⟩
      · simp only [List.mapM_cons, kept.1.submissionOf_entries base, read, bind, Except.bind, pure,
          Except.pure, List.map_cons]

theorem all_equals_reread {reports : List SubmissionReport}
    (kept : ∀ report ∈ reports, report.Kept) :
    (reports.zip (reports.map reread)).all (fun (one, other) => one.equals other) = true := by
  induction reports with
  | nil => rfl
  | cons report reports ih =>
      rw [List.forall_mem_cons] at kept
      rw [List.map_cons, List.zip_cons_cons, List.all_cons, Bool.and_eq_true]
      exact ⟨kept.1.equals_reread, ih kept.2⟩

end SubmissionReport

/-- Whether the reader of the document of statistics gives equal statistics. -/
structure Statistics.Kept (statistics : Statistics) : Prop where
  latest : ∃ latest, statistics.latestDevScore = .int latest
  skills : (statistics.scoreBreakdown.map (·.1)).Nodup
  trend : ∀ entries ∈ statistics.recentTrend,
    (Data.mapping entries).IsJson ∧ .nan ∉ (Data.mapping entries).floats

namespace Statistics

variable {statistics : Statistics}

/-- The entries of the rounded scores. -/
def skillEntries (statistics : Statistics) : Entries :=
  statistics.scoreBreakdown.map fun (skill, score) => (.text skill, .int score)

theorem Kept.skillEntries_named (kept : statistics.Kept) : statistics.skillEntries.Named where
  texts := by
    intro key mem
    rw [skillEntries, List.map_map] at mem
    rcases List.mem_map.mp mem with ⟨entry, _, rfl⟩
    exact ⟨entry.1, rfl⟩
  distinct := by
    have keys : statistics.skillEntries.map Prod.fst =
        (statistics.scoreBreakdown.map (·.1)).map Scalar.text := by
      simp [skillEntries, Function.comp_def]
    rw [keys]
    exact kept.skills.map fun _ _ same => Scalar.text.inj same

theorem named_entries (statistics : Statistics) :
    (Report.entriesOf statistics.toData).Named where
  texts := by simp [toData]
  distinct := by simp [toData]

theorem isJson_toData (kept : statistics.Kept) : statistics.toData.IsJson := by
  refine .mapping statistics.named_entries ?_
  rcases kept.latest with ⟨latest, latest_eq⟩
  have weakest : (optionalText statistics.weakestSkill).IsJson := by
    cases statistics.weakestSkill <;> exact .scalar trivial
  have skills : (Data.mapping statistics.skillEntries).IsJson := by
    refine .mapping kept.skillEntries_named ?_
    intro entry mem
    rcases List.mem_map.mp mem with ⟨_, _, rfl⟩
    exact .scalar trivial
  have trend : (Data.list (statistics.recentTrend.map .mapping)).IsJson := by
    refine .list ?_
    intro item mem
    rcases List.mem_map.mp mem with ⟨entries, entriesMem, rfl⟩
    exact (kept.trend entries entriesMem).1
  rw [skillEntries] at skills
  simp [latest_eq, Data.number, weakest, skills, trend]

theorem breakdownOf_skillEntries (statistics : Statistics) :
    Report.breakdownOf (.mapping statistics.skillEntries) = .ok statistics.scoreBreakdown := by
  rw [Report.breakdownOf, Report.entriesOf_mapping, skillEntries, mapM_eq_ok_iff,
    List.forall₂_map_left_iff, List.forall₂_same]
  intro entry _
  rfl

theorem mappingsOf_trend (statistics : Statistics) :
    Report.mappingsOf (.list (statistics.recentTrend.map .mapping)) = statistics.recentTrend := by
  rw [Report.mappingsOf, List.filterMap_map]
  exact List.filterMap_some

theorem statisticsOf_toData (kept : statistics.Kept) :
    Report.statisticsOf statistics.toData = .ok (some statistics) := by
  have field : ∀ key value, (.text key, value) ∈ Report.entriesOf statistics.toData → ∀ default,
      Report.field (Report.entriesOf statistics.toData) key default = value :=
    fun key value mem => Report.field_of_mem statistics.named_entries mem
  rcases kept.latest with ⟨latest, latest_eq⟩
  change Report.statisticsOf (.mapping (Report.entriesOf statistics.toData)) = _
  rw [Report.statisticsOf,
    field "total_submissions" (.int statistics.totalSubmissions) (by simp [toData]),
    field "average_dev_score" (.int statistics.averageDevScore) (by simp [toData]),
    field "latest_dev_score" (.int latest) (by simp [toData, latest_eq, Data.number]),
    field "improvement" (.int statistics.improvement) (by simp [toData]),
    field "weakest_skill" (optionalText statistics.weakestSkill) (by simp [toData]),
    field "score_breakdown" (.mapping statistics.skillEntries) (by simp [toData, skillEntries]),
    field "recent_trend" (.list (statistics.recentTrend.map .mapping)) (by simp [toData])]
  simp only [Report.integerOr_int, Report.optionalTextOf_optionalText, breakdownOf_skillEntries,
    mappingsOf_trend, bind, Except.bind, pure, Except.pure, ← latest_eq]

theorem nan_notMem_floats (kept : statistics.Kept) : .nan ∉ statistics.toData.floats := by
  rcases kept.latest with ⟨latest, latest_eq⟩
  have weakest : .nan ∉ (optionalText statistics.weakestSkill).collect Scalar.floats := by
    cases statistics.weakestSkill <;> simp [optionalText, Data.collect, Scalar.floats]
  have skills : .nan ∉ Data.collectEntries Scalar.floats statistics.skillEntries := by
    rw [Data.mem_collectEntries]
    rintro ⟨entry, mem, nan⟩
    rcases List.mem_map.mp mem with ⟨_, _, rfl⟩
    simp [Data.collect, Scalar.floats] at nan
  have trend : .nan ∉ Data.collectItems Scalar.floats (statistics.recentTrend.map .mapping) := by
    rw [Data.mem_collectItems]
    rintro ⟨item, mem, nan⟩
    rcases List.mem_map.mp mem with ⟨entries, entriesMem, rfl⟩
    exact (kept.trend entries entriesMem).2 nan
  rw [skillEntries] at skills
  simp [toData, Data.floats, Data.collect, Data.collectEntries, Scalar.floats, Data.number,
    latest_eq, weakest, skills, trend]

theorem equals_self (kept : statistics.Kept) : statistics.equals statistics = true :=
  Data.equals_self (isJson_toData kept) (nan_notMem_floats kept)

end Statistics

/-- Whether the reader of a report's document gives an equal report. -/
structure Report.Kept (report : Report) : Prop where
  submissions : ∀ submission ∈ report.submissions, submission.Kept
  statistics : ∀ statistics ∈ report.statistics, statistics.Kept

namespace Report

variable {report : Report}

/-- The entries of a report's document. -/
def entries (report : Report) (submissions : List Data) : Entries :=
  [(.text "schema_version", .int report.schemaVersion),
    (.text "generated_at", .text report.generatedAt),
    (.text "submissions", .list submissions)] ++
      match report.statistics with
      | none => []
      | some statistics => [(.text "stats", statistics.toData)]

theorem named_entries (report : Report) (submissions : List Data) :
    (report.entries submissions).Named := by
  cases statistics : report.statistics with
  | none => exact ⟨by simp [entries, statistics], by simp [entries, statistics]⟩
  | some _ => exact ⟨by simp [entries, statistics], by simp [entries, statistics]⟩

theorem isJson_entries (kept : report.Kept) {submissions : List Data}
    (each : ∀ submission ∈ submissions, submission.IsJson) :
    (Data.mapping (report.entries submissions)).IsJson := by
  refine .mapping (report.named_entries submissions) ?_
  have list := Data.IsJson.list each
  cases statistics_eq : report.statistics with
  | none => simp [entries, statistics_eq, list]
  | some statistics =>
      have isJson := Statistics.isJson_toData (kept.statistics statistics statistics_eq)
      simp [entries, statistics_eq, list, isJson]

/-- The report as it is read, with floats for scores. -/
def reread (report : Report) : Report :=
  { report with submissions := report.submissions.map SubmissionReport.reread }

theorem Kept.equals_reread (kept : report.Kept) : report.equals report.reread = true := by
  have same := SubmissionReport.all_equals_reread kept.submissions
  simp only [equals, reread, List.length_map, decide_true, same, Bool.and_self, Bool.true_and]
  cases statistics_eq : report.statistics with
  | none => rfl
  | some statistics => exact Statistics.equals_self (kept.statistics statistics statistics_eq)

theorem Kept.statisticsOf_field (kept : report.Kept) (submissions : List Data) :
    statisticsOf (field (report.entries submissions) "stats" .null) = .ok report.statistics := by
  cases statistics_eq : report.statistics with
  | none =>
      have absent : field (report.entries submissions) "stats" .null = .null := by
        simp [field, Entries.get?, Entries.find?, entries, statistics_eq, Scalar.sameKey_text]
      rw [absent]
      rfl
  | some statistics =>
      have listed : (.text "stats", statistics.toData) ∈ report.entries submissions := by
        simp [entries, statistics_eq]
      rw [field_of_mem (report.named_entries _) listed]
      exact Statistics.statisticsOf_toData (kept.statistics statistics statistics_eq)

/-- The document of a kept report is one of the format, and its reader gives the report with floats
for scores. -/
theorem toData_kept (kept : report.Kept) :
    ∃ data, report.toData = .ok data ∧ data.IsJson ∧ ofData data = .ok report.reread := by
  rcases SubmissionReport.exists_documents kept.submissions with ⟨documents, written, areJson, read⟩
  have isJson : (Data.mapping (report.entries (documents.map .mapping))).IsJson := by
    apply isJson_entries kept
    intro submission mem
    rcases List.mem_map.mp mem with ⟨document, documentMem, rfl⟩
    exact areJson document documentMem
  have field : ∀ key value, (.text key, value) ∈ report.entries (documents.map .mapping) →
      ∀ default, Report.field (report.entries (documents.map .mapping)) key default = value :=
    fun key value mem => Report.field_of_mem (report.named_entries _) mem
  have mappings : mappingsOf (.list (documents.map .mapping)) = documents := by
    rw [mappingsOf, List.filterMap_map]
    exact List.filterMap_some
  refine ⟨.mapping (report.entries (documents.map .mapping)), ?_, isJson, ?_⟩
  · rw [toData, written]
    rfl
  · rw [ofData, entriesOf_mapping,
      field "submissions" (.list (documents.map .mapping)) (by simp [entries]),
      field "schema_version" (.int report.schemaVersion) (by simp [entries]),
      field "generated_at" (.text report.generatedAt) (by simp [entries]),
      kept.statisticsOf_field, mappings, read]
    rfl

end Report

end Scorecard
