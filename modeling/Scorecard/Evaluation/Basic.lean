import Scorecard.Language
import Scorecard.Scoring

/-!
# Evaluations

An evaluation is a set of scores and written feedback. Where none can be had the neutral one stands
in: every score in the middle, and feedback that says so. A submission is a piece of code with its
language; its result joins the metrics of the code, the evaluation and the score.
-/

namespace Scorecard

/-- What an evaluator wrote about a piece of code. -/
structure Feedback where
  strengths : List String := []
  weaknesses : List String := []
  suggestions : List String := []
  interviewQuestions : List String := []
  detailedAnalysis : String := ""
deriving DecidableEq

namespace Feedback

/-- A list of texts as a document. -/
def textsData (texts : List String) : Data :=
  .list (texts.map .text)

/-- The feedback as a document. -/
def toData (feedback : Feedback) : Data :=
  .mapping [
    (.text "strengths", textsData feedback.strengths),
    (.text "weaknesses", textsData feedback.weaknesses),
    (.text "suggestions", textsData feedback.suggestions),
    (.text "interviewQuestions", textsData feedback.interviewQuestions),
    (.text "detailedAnalysis", .text feedback.detailedAnalysis)]

end Feedback

/-- Scores and feedback. -/
structure Evaluation where
  scores : Scores
  feedback : Feedback
deriving DecidableEq

/-- The score that stands for no opinion. -/
def neutralScore : Number := .int 50

/-- The evaluation that stands in for a missing one. -/
def Evaluation.neutral : Evaluation where
  scores := .uniform neutralScore
  feedback := {
    strengths := ["Code submitted successfully"]
    weaknesses := ["Unable to complete full evaluation"]
    suggestions := ["Please try again or contact support"]
    interviewQuestions := ["What was your approach to solving this problem?"]
    detailedAnalysis :=
      "Evaluation service encountered an issue. Please try submitting again." }

/-- A piece of code to be scored. -/
structure Submission where
  code : Data
  language : Data
  interviewMode : Bool := false
  label : String := ""
  /-- When the code was last written; empty when unknown. -/
  submittedAt : String := ""

/-- A label, or a word that stands for a missing one. -/
def labelOrDefault (label : String) : String :=
  if label = "" then "submission" else label

/-- The result for a piece of code. -/
structure EvaluationResult where
  language : String
  family : Option String
  interviewMode : Bool
  metrics : Metrics
  scores : Scores
  feedback : Feedback
  staticPenalty : Int
  devScore : Int
  /-- Whether the neutral evaluation stands in. -/
  fallback : Bool
deriving DecidableEq

end Scorecard
