import Scorecard.Report.Basic

/-!
# Statistics of results

Results are ranked by the time of their submission, newest first, results of one time in their given
order. Means are rounded with halves going up. The improvement compares the newest window with the
one before it and is zero while there are not enough results for two. Of equally weak skills the
last one in the order of the scores is the weakest.
-/

namespace Scorecard

/-- How many results a window of the improvement holds. -/
def improvementWindow : Nat := 3

/-- How many results the trend shows. -/
def trendLength : Nat := 10

/-- What the statistics use of a result. -/
structure ScoredEntry where
  submittedAt : String
  language : String
  scores : Scores
  devScore : Number
deriving DecidableEq

/-- What the statistics use of a submission's result. -/
def SubmissionReport.entry (report : SubmissionReport) : ScoredEntry where
  submittedAt := report.submittedAt
  language := report.result.language
  scores := report.result.scores
  devScore := .int report.result.devScore

namespace Statistics

/-- The statistics of no results. -/
def empty : Statistics where
  totalSubmissions := 0
  averageDevScore := 0
  latestDevScore := .int 0
  improvement := 0
  weakestSkill := none
  scoreBreakdown := []
  recentTrend := []

/-- The entries newest first; entries of one time keep their order. -/
def newestFirst (entries : List ScoredEntry) : List ScoredEntry :=
  entries.mergeSort fun left right => !(left.submittedAt < right.submittedAt)

/-- The rounded mean of numbers taken as floats. -/
def roundedMean (numbers : List Number) : Except Fault Int := do
  let floats ← numbers.mapM Number.toFloat
  Number.roundHalfUp (.float (← Number.mean (floats.map .float)))

/-- The rounded means of the scores, each under its name. -/
def breakdown (entries : List ScoredEntry) : Except Fault (List (String × Int)) :=
  let skills : List (String × (Scores → Number)) :=
    [("codeQuality", (·.codeQuality)), ("timeComplexity", (·.timeComplexity)),
      ("spaceComplexity", (·.spaceComplexity)), ("security", (·.security)),
      ("readability", (·.readability))]
  skills.mapM fun (skill, score) => do
    return (skill, ← roundedMean (entries.map fun entry => score entry.scores))

/-- The name of the least value, the last one if there are several. -/
def weakest (scores : List (String × Int)) : Option String :=
  let least := scores.foldl (fun least (skill, value) =>
    match least with
    | none => some (skill, value)
    | some (_, lowest) => if value ≤ lowest then some (skill, value) else least) none
  least.map (·.1)

/-- The rounded difference of the means of the newest window and the one before it. -/
def improvementOf (ranked : List ScoredEntry) : Except Fault Int := do
  if ranked.length < 2 * improvementWindow then
    return 0
  let scores := ranked.map (·.devScore)
  let recent ← Number.mean (scores.take improvementWindow)
  let previous ← Number.mean ((scores.drop improvementWindow).take improvementWindow)
  Number.roundHalfUp (.float (recent.sub previous))

/-- The newest entries, oldest of them first. -/
def trend (ranked : List ScoredEntry) : List Entries :=
  (ranked.take trendLength).reverse.map fun entry => [
    (.text "submitted_at", .text entry.submittedAt),
    (.text "dev_score", .number entry.devScore),
    (.text "language", .text entry.language)]

/-- The statistics of entries. -/
def ofEntries (entries : List ScoredEntry) : Except Fault Statistics := do
  let ranked := newestFirst entries
  match ranked.head? with
  | none => return empty
  | some latest =>
      let scores ← breakdown ranked
      let average ← roundedMean (ranked.map (·.devScore))
      let improvement ← improvementOf ranked
      return {
        totalSubmissions := ranked.length
        averageDevScore := average
        latestDevScore := latest.devScore
        improvement
        weakestSkill := weakest scores
        scoreBreakdown := scores
        recentTrend := trend ranked }

/-- The statistics of the results of submissions. -/
def ofReports (reports : List SubmissionReport) : Except Fault Statistics :=
  ofEntries (reports.map (·.entry))

end Statistics

end Scorecard
