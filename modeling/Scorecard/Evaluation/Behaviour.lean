import Scorecard.Evaluation.Pipeline

/-!
# Behaviour of evaluators

An evaluator is asked about a piece of code in its language, with the mode and the metrics of the
code. If it is a function of the question, all that can be seen of it is its reply and the remarks
it leaves before. The pipeline adds a notice of its own where a reply is no evaluation. The
evaluators of the pipeline behave like this as long as the files stay as they are.
-/

namespace Scorecard

/-- The language of a warning about a language without a family. -/
def Notice.unrouted? : Notice → Option String
  | .unroutedLanguage language => some language
  | _ => none

/-- What an evaluator is asked. -/
structure Question where
  code : Data
  language : Data
  interviewMode : Bool
  metrics : Metrics

/-- What a call of an evaluator comes to. -/
inductive Reply where
  /-- An evaluation of its own. -/
  | evaluation (value : Evaluation)
  /-- The neutral evaluation itself. -/
  | neutral
  /-- The call fails. -/
  | failure (reason : String)
  /-- A value of some kind that is no evaluation. -/
  | other (kind : String)
deriving DecidableEq

namespace Reply

/-- The evaluation of a reply; none stands for the neutral one. -/
def evaluation? : Reply → Option Evaluation
  | .evaluation value => some value
  | _ => none

/-- What the pipeline notes about a reply. -/
def notices (label : String) : Reply → List Notice
  | .failure reason => [.evaluatorFailed label reason]
  | .other kind => [.evaluatorReturned kind]
  | _ => []

end Reply

/-- An evaluator that is a function of the question. -/
structure Behaviour where
  reply : Question → Reply
  /-- What the evaluator itself notes before it replies. -/
  remarks : Question → List Notice
  /-- Only the analysis warns about languages. -/
  unrouted?_remarks : ∀ question, ∀ notice ∈ remarks question, notice.unrouted? = none := by
    intro question notice mem
    cases mem

/-- The reply that a payload gives. -/
def payloadReply (text : String) : Reply :=
  match Payload.parse text with
  | .ok (some evaluation) => .evaluation evaluation
  | .ok none => .neutral
  | .error fault => .failure fault.message

/-- What is noted about a payload. -/
def payloadRemarks (text : String) : List Notice :=
  match Payload.parse text with
  | .ok none => [.malformedPayload]
  | _ => []

theorem unrouted?_payloadRemarks (text : String) :
    ∀ notice ∈ payloadRemarks text, notice.unrouted? = none := by
  intro notice mem
  rw [payloadRemarks] at mem
  split at mem
  · rw [List.mem_singleton.mp mem]
    rfl
  · cases mem

/-- The reply of an evaluator that reads its payload from a file. -/
def fileReply (tree : FileTree) (path : Path) : Reply :=
  match tree.readText path with
  | .ok text => payloadReply (String.ofList text)
  | .error fault => if fault.isFileProblem then .neutral else .failure fault.message

/-- What is noted about a payload in a file. -/
def fileRemarks (tree : FileTree) (path : Path) : List Notice :=
  match tree.readText path with
  | .ok text => payloadRemarks (String.ofList text)
  | .error fault => if fault.isFileProblem then [.unreadableEvaluation path.display fault] else []

theorem unrouted?_fileRemarks (tree : FileTree) (path : Path) :
    ∀ notice ∈ fileRemarks tree path, notice.unrouted? = none := by
  intro notice mem
  rw [fileRemarks] at mem
  split at mem
  · exact unrouted?_payloadRemarks _ notice mem
  · split at mem
    · rw [List.mem_singleton.mp mem]
      rfl
    · cases mem

/-- The behaviour of an evaluator of the pipeline. -/
def Evaluator.behaviour (evaluator : Evaluator) (tree : FileTree) : Behaviour :=
  match evaluator with
  | .neutral => { reply := fun _ => .neutral, remarks := fun _ => [] }
  | .payload text => {
      reply := fun _ => payloadReply text
      remarks := fun _ => payloadRemarks text
      unrouted?_remarks := fun _ => unrouted?_payloadRemarks text }
  | .file path => {
      reply := fun _ => fileReply tree path
      remarks := fun _ => fileRemarks tree path
      unrouted?_remarks := fun _ => unrouted?_fileRemarks tree path }
  | .failing reason => { reply := fun _ => .failure reason, remarks := fun _ => [] }
  | .answering value => { reply := fun _ => .other value.kindName, remarks := fun _ => [] }

/-- The evaluation that an evaluator gives a question for a submission with a label. -/
def Behaviour.evaluate (behaviour : Behaviour) (label : String) (question : Question) :
    Recorded (Option Evaluation) := do
  (behaviour.remarks question).forM Recorded.note
  ((behaviour.reply question).notices label).forM Recorded.note
  return (behaviour.reply question).evaluation?

/-- What an evaluator is asked about a submission. -/
def Submission.question (submission : Submission) (metrics : Metrics) : Question where
  code := submission.code
  language := submission.language
  interviewMode := submission.interviewMode
  metrics := metrics

/-- The result of a submission with its metrics and an evaluation; none stands for the neutral
one. -/
def Submission.result (submission : Submission) (routes : Routes) (metrics : Metrics)
    (opinion : Option Evaluation) : Except Fault EvaluationResult := do
  let evaluation := opinion.getD .neutral
  let penalty := staticPenalty metrics
  let family ← Language.familyOf submission.language routes
  return {
    language := Language.normalize (← Language.nameText submission.language)
    family := family.map Family.name
    interviewMode := submission.interviewMode
    metrics
    scores := evaluation.scores
    feedback := evaluation.feedback
    staticPenalty := penalty
    devScore := ← devScore evaluation.scores (.int penalty)
    fallback := opinion.isNone }

/-- The result of a submission under an evaluator's behaviour. -/
def Behaviour.evaluateSubmission (behaviour : Behaviour) (routes : Routes)
    (submission : Submission) : Recorded EvaluationResult := do
  let metrics ← analyze submission.code submission.language routes
  let opinion ← behaviour.evaluate (labelOrDefault submission.label) (submission.question metrics)
  Recorded.ofExcept (submission.result routes metrics opinion)

/-- The results of submissions, one after the other. -/
def Behaviour.evaluateInTurn (behaviour : Behaviour) (routes : Routes)
    (submissions : List Submission) : Recorded (List EvaluationResult) :=
  submissions.mapM (behaviour.evaluateSubmission routes)

end Scorecard
