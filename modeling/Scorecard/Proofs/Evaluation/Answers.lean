import Scorecard.Evaluation.Pipeline
import Scorecard.Proofs.Journal

/-!
# Answers of the pipeline

The journal takes notices and remembers names, but nothing that the pipeline answers is read from
it. So the pipeline has a reading without a journal: an evaluator has one opinion of every
submission, and the result of a submission is a function of the submission, that opinion and the
routes.
-/

namespace Scorecard

/-- The evaluation that a payload gives; none stands for the neutral one. -/
def payloadOpinion (text : String) : Option Evaluation :=
  match Payload.parse text with
  | .ok answer => answer
  | .error _ => none

/-- The evaluation that an evaluator gives; none stands for the neutral one. -/
def Evaluator.opinion (evaluator : Evaluator) (tree : FileTree) : Option Evaluation :=
  match evaluator with
  | .payload text => payloadOpinion text
  | .file path =>
      match tree.readText path with
      | .ok text => payloadOpinion (String.ofList text)
      | .error _ => none
  | _ => none

/-- The metrics of a piece of code, or why there are none. -/
def metricsOf (code language : Data) (routes : Routes) : Except Fault Metrics := do
  match ← Language.familyOf language routes with
  | none => do
      let _ ← unroutedName language
      return .zero
  | some family => return family.rules.analyze (← codeText code)

/-- The result of a submission under an opinion, or why there is none. -/
def resultOf (opinion : Option Evaluation) (routes : Routes) (submission : Submission) :
    Except Fault EvaluationResult := do
  let metrics ← metricsOf submission.code submission.language routes
  let evaluation := opinion.getD .neutral
  let family ← Language.familyOf submission.language routes
  return {
    language := Language.normalize (← Language.nameText submission.language)
    family := family.map Family.name
    interviewMode := submission.interviewMode
    metrics
    scores := evaluation.scores
    feedback := evaluation.feedback
    staticPenalty := staticPenalty metrics
    devScore := ← devScore evaluation.scores (.int (staticPenalty metrics))
    fallback := opinion.isNone }

open Recorded

theorem answers_evaluationOfPayload (label text : String) :
    Answers (evaluationOfPayload label text) (.ok (payloadOpinion text)) := by
  rw [evaluationOfPayload, payloadOpinion]
  cases Payload.parse text with
  | error fault =>
      exact (answers_note _).bind_ok (answers_pure none)
  | ok answer =>
      cases answer with
      | none => exact (answers_note _).bind_ok (answers_pure none)
      | some evaluation => exact answers_pure (some evaluation)

theorem answers_evaluate (evaluator : Evaluator) (tree : FileTree) (label : String) :
    Answers (evaluator.evaluate tree label) (.ok (evaluator.opinion tree)) := by
  cases evaluator with
  | neutral => exact answers_pure none
  | payload text => exact answers_evaluationOfPayload label text
  | failing reason => exact (answers_note _).bind_ok (answers_pure none)
  | answering value => exact (answers_note _).bind_ok (answers_pure none)
  | file path =>
      rw [Evaluator.evaluate, Evaluator.opinion]
      cases tree.readText path with
      | ok text => exact answers_evaluationOfPayload label (String.ofList text)
      | error fault =>
          simp only
          split
          · exact (answers_note _).bind_ok (answers_pure none)
          · exact (answers_note _).bind_ok (answers_pure none)

theorem answers_analyze (code language : Data) (routes : Routes) :
    Answers (analyze code language routes) (metricsOf code language routes) := by
  refine (answers_ofExcept _).bind fun family _ => ?_
  cases family with
  | none =>
      refine (answers_ofExcept _).bind fun name _ => ?_
      exact (answers_modify _).bind fun _ _ => answers_pure _
  | some family => exact (answers_ofExcept _).bind fun text _ => answers_pure _

theorem answers_evaluateSubmission (tree : FileTree) (evaluator : Evaluator) (routes : Routes)
    (submission : Submission) :
    Answers (evaluateSubmission tree evaluator routes submission)
      (resultOf (evaluator.opinion tree) routes submission) := by
  refine (answers_analyze _ _ _).bind fun metrics _ => ?_
  refine (answers_evaluate evaluator tree _).bind_ok ?_
  refine (answers_ofExcept _).bind fun family _ => ?_
  refine (answers_ofExcept _).bind fun name _ => ?_
  exact (answers_ofExcept _).bind fun score _ => answers_pure _

/-- The pipeline answers with the results of the submissions, in their order, whatever was recorded
before. -/
theorem answers_evaluateAll (tree : FileTree) (evaluator : Evaluator) (routes : Routes)
    (submissions : List Submission) :
    Answers (evaluateAll tree evaluator routes submissions)
      (submissions.mapM (resultOf (evaluator.opinion tree) routes)) :=
  answers_mapM (answers_evaluateSubmission tree evaluator routes) submissions

end Scorecard
