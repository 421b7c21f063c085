import Scorecard.Analysis.Analyze
import Scorecard.Evaluation.Payload

/-!
# Scoring submissions

An evaluator answers for a submission, fails, or answers with something else; in the last two cases,
and where its payload is no evaluation, the neutral evaluation stands in and a notice tells why. The
result of a submission depends on nothing but the submission, the evaluator and the routes; only the
notices depend on what came before.
-/

namespace Scorecard

/-- Something that evaluates code. -/
inductive Evaluator where
  /-- Always neutral. -/
  | neutral
  /-- Always the same payload. -/
  | payload (text : String)
  /-- The payload in a file. -/
  | file (path : Path)
  /-- Always fails. -/
  | failing (reason : String)
  /-- Always answers with a value that is no evaluation. -/
  | answering (value : Data)

/-- The evaluation of a payload; none stands for the neutral one. -/
def evaluationOfPayload (label text : String) : Recorded (Option Evaluation) := do
  match Payload.parse text with
  | .ok (some evaluation) => return some evaluation
  | .ok none =>
      Recorded.note .malformedPayload
      return none
  | .error fault =>
      Recorded.note (.evaluatorFailed label fault.message)
      return none

/-- The evaluation of a submission with the given label; none stands for the neutral one. -/
def Evaluator.evaluate (evaluator : Evaluator) (tree : FileTree) (label : String) :
    Recorded (Option Evaluation) := do
  match evaluator with
  | .neutral => return none
  | .payload text => evaluationOfPayload label text
  | .file path =>
      match tree.readText path with
      | .ok text => evaluationOfPayload label (String.ofList text)
      | .error fault =>
          if fault.isFileProblem then Recorded.note (.unreadableEvaluation path.display fault)
          else Recorded.note (.evaluatorFailed label fault.message)
          return none
  | .failing reason =>
      Recorded.note (.evaluatorFailed label reason)
      return none
  | .answering value =>
      Recorded.note (.evaluatorReturned value.kindName)
      return none

/-- The result of a submission. -/
def evaluateSubmission (tree : FileTree) (evaluator : Evaluator) (routes : Routes)
    (submission : Submission) : Recorded EvaluationResult := do
  let metrics ← analyze submission.code submission.language routes
  let answer ← evaluator.evaluate tree (labelOrDefault submission.label)
  let evaluation := answer.getD .neutral
  let penalty := staticPenalty metrics
  let family ← Recorded.ofExcept (Language.familyOf submission.language routes)
  return {
    language := Language.normalize (← Recorded.ofExcept (Language.nameText submission.language))
    family := family.map Family.name
    interviewMode := submission.interviewMode
    metrics
    scores := evaluation.scores
    feedback := evaluation.feedback
    staticPenalty := penalty
    devScore := ← Recorded.ofExcept (devScore evaluation.scores (.int penalty))
    fallback := answer.isNone }

/-- The results of submissions, in their order. -/
def evaluateAll (tree : FileTree) (evaluator : Evaluator) (routes : Routes)
    (submissions : List Submission) : Recorded (List EvaluationResult) :=
  submissions.mapM (evaluateSubmission tree evaluator routes)

end Scorecard
