import Scorecard.Evaluation.Basic

/-!
# Reports

A report holds the results of submissions and, if they were computed, their statistics. Two reports
are equal field by field, numbers by value.
-/

namespace Scorecard

/-- The statistics of a list of results. -/
structure Statistics where
  totalSubmissions : Int
  averageDevScore : Int
  latestDevScore : Number
  improvement : Int
  weakestSkill : Option String
  scoreBreakdown : List (String × Int)
  /-- The most recent results, oldest first, each as a mapping. -/
  recentTrend : List Entries

/-- A result with the label and time of its submission. -/
structure SubmissionReport where
  label : String
  submittedAt : String
  result : EvaluationResult
deriving DecidableEq

/-- Results, and perhaps their statistics. -/
structure Report where
  schemaVersion : Int
  generatedAt : String
  submissions : List SubmissionReport
  statistics : Option Statistics

/-- The version of the report format. -/
def schemaVersion : Int := 1

/-- A text that may be absent, as a document. -/
def optionalText (text : Option String) : Data :=
  match text with
  | none => .null
  | some value => .text value

namespace Statistics

/-- The statistics as a document. -/
def toData (statistics : Statistics) : Data :=
  .mapping [
    (.text "total_submissions", .int statistics.totalSubmissions),
    (.text "average_dev_score", .int statistics.averageDevScore),
    (.text "latest_dev_score", .number statistics.latestDevScore),
    (.text "improvement", .int statistics.improvement),
    (.text "weakest_skill", optionalText statistics.weakestSkill),
    (.text "score_breakdown",
      .mapping (statistics.scoreBreakdown.map fun (skill, score) => (.text skill, .int score))),
    (.text "recent_trend", .list (statistics.recentTrend.map .mapping))]

/-- Whether two statistics are equal. -/
def equals (left right : Statistics) : Bool :=
  left.toData.equals right.toData

end Statistics

namespace SubmissionReport

/-- A submission's result as a document, with the base of its score and what was taken off it. -/
def toData (report : SubmissionReport) : Except Fault Data := do
  let result := report.result
  return .mapping [
    (.text "label", .text report.label),
    (.text "submitted_at", .text report.submittedAt),
    (.text "language", .text result.language),
    (.text "family", optionalText result.family),
    (.text "interview_mode", .bool result.interviewMode),
    (.text "static_analysis", result.metrics.toData),
    (.text "scores", result.scores.toData),
    (.text "feedback", result.feedback.toData),
    (.text "base_score", .float (← result.scores.weightedBase)),
    (.text "static_penalty", .int result.staticPenalty),
    (.text "applied_penalty", .int (appliedPoints result.staticPenalty)),
    (.text "dev_score", .int result.devScore),
    (.text "fallback", .bool result.fallback)]

/-- Whether two results are equal, scores by value. -/
def equals (left right : SubmissionReport) : Bool :=
  left.label = right.label && left.submittedAt = right.submittedAt &&
    { left.result with scores := right.result.scores } = right.result &&
    left.result.scores.toData.equals right.result.scores.toData

end SubmissionReport

namespace Report

/-- The report as a document; statistics that were not computed are left out. -/
def toData (report : Report) : Except Fault Data := do
  let submissions ← report.submissions.mapM SubmissionReport.toData
  let statistics := match report.statistics with
    | none => []
    | some statistics => [(Scalar.text "stats", statistics.toData)]
  return .mapping ([
    (.text "schema_version", .int report.schemaVersion),
    (.text "generated_at", .text report.generatedAt),
    (.text "submissions", .list submissions)] ++ statistics)

/-- Whether two reports are equal. -/
def equals (left right : Report) : Bool :=
  left.schemaVersion = right.schemaVersion && left.generatedAt = right.generatedAt &&
    left.submissions.length = right.submissions.length &&
    (left.submissions.zip right.submissions).all (fun (one, other) => one.equals other) &&
    match left.statistics, right.statistics with
    | none, none => true
    | some one, some other => one.equals other
    | _, _ => false

end Report

end Scorecard
