import Scorecard.FileSystem.Tree
import Scorecard.Json.Reader
import Scorecard.Json.Writer
import Scorecard.Report.Basic

/-!
# Writing and reading reports

A report is written as an indented JSON document. The reader takes any JSON document: a field that
is missing, or of a kind that does not denote its value, has a default, and entries of lists that
are no mappings are left out.
-/

namespace Scorecard

namespace Report

/-- The text of a report. -/
def encode (report : Report) : Except Fault String := do
  Json.encode .indented (← report.toData)

/-- The tree with a report written to a file. -/
def write (report : Report) (tree : FileTree) (path : Path) (time : Int) :
    Except Fault FileTree := do
  let ready ← tree.ensureDirectory path.parent
  ready.write path (Utf8.encode (← report.encode).toList) time

/-- The value under a key, or a default. -/
def field (entries : Entries) (key : String) (default : Data) : Data :=
  (entries.get? key).getD default

/-- The integer that a value denotes, or a default. -/
def integerOr (value : Data) (default : Int) : Except Fault Int := do
  return (← value.toInteger?).getD default

/-- The items of a list as texts; anything else holds none. -/
def textsOf (value : Data) : Except Fault (List String) :=
  match value with
  | .list items => items.mapM (·.display)
  | _ => .ok []

/-- The text of a value, unless it is absent. -/
def optionalTextOf (value : Data) : Except Fault (Option String) :=
  match value with
  | .scalar .null => .ok none
  | other => do return some (← other.display)

/-- The entries of a mapping; anything else has none. -/
def entriesOf (value : Data) : Entries :=
  value.entries?.getD []

/-- The mappings among the items of a list; anything else holds none. -/
def mappingsOf (value : Data) : List Entries :=
  match value with
  | .list items => items.filterMap (·.entries?)
  | _ => []

/-- The score under a key as a float; what denotes none is the neutral score. -/
def scoreIn (entries : Entries) (key : String) : Except Fault Number := do
  let value ← (field entries key .null).toFloat?
  return .float (value.getD (.ofInt 50))

/-- The scores of a document. -/
def scoresOf (value : Data) : Except Fault Scores := do
  let entries := entriesOf value
  return {
    codeQuality := ← scoreIn entries "codeQuality"
    timeComplexity := ← scoreIn entries "timeComplexity"
    spaceComplexity := ← scoreIn entries "spaceComplexity"
    security := ← scoreIn entries "security"
    readability := ← scoreIn entries "readability" }

/-- The feedback of a document. -/
def feedbackOf (value : Data) : Except Fault Feedback := do
  let entries := entriesOf value
  return {
    strengths := ← textsOf (field entries "strengths" .null)
    weaknesses := ← textsOf (field entries "weaknesses" .null)
    suggestions := ← textsOf (field entries "suggestions" .null)
    interviewQuestions := ← textsOf (field entries "interviewQuestions" .null)
    detailedAnalysis := ← (field entries "detailedAnalysis" (.text "")).display }

/-- The result of a submission from its entries. -/
def submissionOf (entries : Entries) : Except Fault SubmissionReport := do
  let language ← (field entries "language" (.text "")).display
  let family ← optionalTextOf (field entries "family" .null)
  let metrics ← Metrics.ofData (field entries "static_analysis" .null)
  let scores ← scoresOf (field entries "scores" .null)
  let feedback ← feedbackOf (field entries "feedback" .null)
  let staticPenalty ← integerOr (field entries "static_penalty" (.int 0)) 0
  let devScore ← integerOr (field entries "dev_score" (.int 0)) 0
  let label ← (field entries "label" (.text "")).display
  let submittedAt ← (field entries "submitted_at" (.text "")).display
  return {
    label, submittedAt
    result := {
      language, family, metrics, scores, feedback, staticPenalty, devScore
      interviewMode := (field entries "interview_mode" (.bool false)).isTruthy
      fallback := (field entries "fallback" (.bool false)).isTruthy } }

/-- The rounded scores of a document, each under its name. -/
def breakdownOf (value : Data) : Except Fault (List (String × Int)) :=
  (entriesOf value).mapM fun (key, score) => do return (← key.display, ← integerOr score 0)

/-- The statistics of a document, if it is a mapping. -/
def statisticsOf (value : Data) : Except Fault (Option Statistics) := do
  match value with
  | .mapping entries =>
      let total ← integerOr (field entries "total_submissions" (.int 0)) 0
      let average ← integerOr (field entries "average_dev_score" (.int 0)) 0
      let latest ← integerOr (field entries "latest_dev_score" (.int 0)) 0
      let improvement ← integerOr (field entries "improvement" (.int 0)) 0
      let weakest ← optionalTextOf (field entries "weakest_skill" .null)
      let breakdown ← breakdownOf (field entries "score_breakdown" .null)
      return some {
        totalSubmissions := total
        averageDevScore := average
        latestDevScore := .int latest
        improvement
        weakestSkill := weakest
        scoreBreakdown := breakdown
        recentTrend := mappingsOf (field entries "recent_trend" .null) }
  | _ => return none

/-- The report that a document denotes. -/
def ofData (data : Data) : Except Fault Report := do
  let entries := entriesOf data
  let submissions ← (mappingsOf (field entries "submissions" .null)).mapM submissionOf
  let version ← integerOr (field entries "schema_version" (.int Scorecard.schemaVersion))
    Scorecard.schemaVersion
  let generatedAt ← (field entries "generated_at" (.text "")).display
  let statistics ← statisticsOf (field entries "stats" .null)
  return { schemaVersion := version, generatedAt, submissions, statistics }

/-- The report that a text denotes. -/
def decode (text : String) : Except Fault Report := do
  ofData (← Json.decode text)

/-- The report in a file. -/
def read (tree : FileTree) (path : Path) : Except Fault Report := do
  decode (String.ofList (← tree.readText path))

end Report

end Scorecard
