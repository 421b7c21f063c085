import Scorecard.Report.Basic

/-!
# Reports for readers

A report is laid out as a heading, a list of its key figures, a table with one row for each result,
and a section with scores and feedback for each result.
-/

namespace Scorecard

namespace Report

/-- The character that sets code apart. -/
def codeMark : String :=
  String.ofList [Char.ofNat 0x60]

/-- A text set apart as code. -/
def code (text : String) : String :=
  codeMark ++ text ++ codeMark

/-- The counts that are not zero, or a word for none. -/
def metricsCell (metrics : Metrics) : Except Fault String := do
  let present := metrics.named.filter fun (_, count) => count != 0
  let parts ← present.mapM fun (name, count) => do return name ++ "=" ++ (← integerText count)
  return if parts.isEmpty then "clean" else ", ".intercalate parts

/-- A score with six digits at most. -/
def scoreText (score : Number) : Except Fault String := do
  return String.ofList (Layout.general.render (← score.toFloat))

/-- The key figures. -/
def figures (report : Report) : Except Fault (List String) := do
  let version ← integerText report.schemaVersion
  let count := toString report.submissions.length
  let statistics ← match report.statistics with
    | none => pure []
    | some statistics =>
        if statistics.totalSubmissions = 0 then pure []
        else do
          let average ← integerText statistics.averageDevScore
          let weakest := match statistics.weakestSkill with
            | none => []
            | some skill => if skill = "" then [] else ["- Weakest skill: " ++ code skill]
          pure (("- Average DevScore: " ++ code average) :: weakest)
  return [
    "- Generated: " ++ code report.generatedAt,
    "- Schema: " ++ code ("v" ++ version),
    "- Submissions: " ++ code count] ++ statistics

/-- The row of a result in the table. -/
def tableRow (report : SubmissionReport) : Except Fault String := do
  let result := report.result
  let score ← integerText result.devScore
  let points ← integerText result.staticPenalty
  let taken ← integerText (appliedPoints result.staticPenalty)
  let known := match result.family with
    | none => false
    | some family => family != ""
  let language := if known then result.language else result.language ++ " (no analyzer)"
  let label := labelOrDefault report.label ++ if result.fallback then " (neutral scores)" else ""
  let counts ← metricsCell result.metrics
  return "| " ++ score ++ " | " ++ points ++ " (-" ++ taken ++ ") | " ++ language ++ " | " ++
    code label ++ " | " ++ counts ++ " |"

/-- The first items of a list; a negative count leaves out as many at the end. -/
def firstItems (items : List String) (count : Int) : List String :=
  if count < 0 then items.take (items.length - count.natAbs) else items.take count.toNat

/-- A list of feedback under its title, if there is any. -/
def feedbackLines (title : String) (items : List String) (maxItems : Int) : List String :=
  if items.isEmpty then []
  else
    ["**" ++ title ++ "**", ""] ++ (firstItems items maxItems).map ("- " ++ ·) ++ [""]

/-- The section of a result. -/
def sectionLines (report : SubmissionReport) (maxItems : Int) : Except Fault (List String) := do
  let result := report.result
  let scores ← result.scores.named.mapM fun (name, score) => do
    return name ++ " " ++ (← scoreText score)
  let questions := if result.interviewMode then "Interview questions" else "Follow-up questions"
  return ["## " ++ labelOrDefault report.label, "", "Scores: " ++ ", ".intercalate scores, ""] ++
    feedbackLines "Strengths" result.feedback.strengths maxItems ++
    feedbackLines "Weaknesses" result.feedback.weaknesses maxItems ++
    feedbackLines "Suggestions" result.feedback.suggestions maxItems ++
    feedbackLines questions result.feedback.interviewQuestions maxItems

/-- How many items of each list of feedback are shown. -/
def defaultMaxItems : Int := 3

/-- The report as a Markdown text. -/
def toMarkdown (report : Report) (maxItems : Int) : Except Fault String := do
  let heading := ["# DevScore report", ""] ++ (← report.figures) ++ [""]
  if report.submissions.isEmpty then
    return "\n".intercalate (heading ++ ["_No submissions evaluated._"]) ++ "\n"
  let rows ← report.submissions.mapM tableRow
  let sections ← report.submissions.mapM (sectionLines · maxItems)
  let table := ["| DevScore | Penalty | Language | Submission | Static issues |",
    "|---:|---:|---|---|---|"] ++ rows ++ [""]
  return "\n".intercalate (heading ++ table ++ sections.flatten)

end Report

end Scorecard
