import Scorecard.Evaluation.Pool
import Scorecard.Proofs.Analysis.Warnings

/-!
# Tasks that are alone, and tasks among others

A task that is alone with its journal is the computation it was made from, step by step. Among
others it may learn other things about names, but the task of a submission goes on to the same
answer whatever it learns: what it learns decides nothing but whether a warning is left.
-/

namespace Scorecard

theorem Recorded.ofExcept_bind {α β : Type} (answer : Except Fault α) (next : α → Except Fault β) :
    ofExcept (answer >>= next) = ofExcept answer >>= fun value => ofExcept (next value) := by
  cases answer with
  | ok value => exact (pure_bind value fun value => ofExcept (next value)).symm
  | error fault => rfl

/-- To claim a name and to leave a notice if it is new is to warn about it. -/
theorem Journal.warnUnrouted_eq (journal : Journal) (name : String) :
    journal.warnUnrouted name =
      if (journal.claim name).1 then (journal.claim name).2.record (.unroutedLanguage name)
      else (journal.claim name).2 := by
  by_cases known : name ∈ journal.warned <;> simp [warnUnrouted, claim, record, known]

namespace Task

variable {α β : Type}

theorem alone_bind (task : Task α) (next : α → Task β) :
    (task.bind next).alone = task.alone >>= fun value => (next value).alone := by
  induction task with
  | answer value =>
      cases value with
      | ok value => simp [bind, alone, Recorded.ofExcept]
      | error fault => rfl
  | claim name rest ih => simp [bind, alone, ih]
  | note notice rest ih => simp [bind, alone, ih]

theorem alone_noteAll (notices : List Notice) (next : Task α) :
    (noteAll notices next).alone = notices.forM Recorded.note >>= fun _ => next.alone := by
  induction notices with
  | nil => simp [noteAll]
  | cons notice rest ih => simp [noteAll, alone, ih]

theorem alone_warnUnrouted (name : String) (next : Task α) :
    (warnUnrouted name next).alone = modify (·.warnUnrouted name) >>= fun _ => next.alone := by
  funext journal
  change (if (journal.claim name).1 then Task.note (.unroutedLanguage name) next else next).alone
    (journal.claim name).2 = next.alone (journal.warnUnrouted name)
  rw [journal.warnUnrouted_eq]
  split
  · rfl
  · rfl

end Task

theorem alone_analysisTask (code language : Data) (routes : Routes) :
    (analysisTask code language routes).alone = analyze code language routes := by
  change Task.alone (Task.bind _ _) = _
  rw [Task.alone_bind, analyze]
  congr 1
  funext family
  cases family with
  | none =>
      change Task.alone (Task.bind _ _) = _
      rw [Task.alone_bind]
      congr 1
      funext name
      exact Task.alone_warnUnrouted name _
  | some family =>
      change Task.alone (Task.bind _ _) = _
      rw [Task.alone_bind]
      rfl

namespace Behaviour

variable (behaviour : Behaviour) (routes : Routes)

theorem alone_evaluationTask (label : String) (question : Question) :
    (behaviour.evaluationTask label question).alone = behaviour.evaluate label question := by
  rw [evaluationTask, Task.alone_noteAll, Task.alone_noteAll]
  rfl

/-- A submission's task alone is the evaluation of the submission. -/
theorem alone_submissionTask (submission : Submission) :
    (behaviour.submissionTask routes submission).alone =
      behaviour.evaluateSubmission routes submission := by
  change Task.alone (Task.bind _ _) = _
  rw [Task.alone_bind, alone_analysisTask, evaluateSubmission]
  congr 1
  funext metrics
  change Task.alone (Task.bind _ _) = _
  rw [Task.alone_bind, alone_evaluationTask]
  rfl

end Behaviour

theorem evaluationOfPayload_eq (label text : String) :
    evaluationOfPayload label text = (do
      (payloadRemarks text).forM Recorded.note
      ((payloadReply text).notices label).forM Recorded.note
      return (payloadReply text).evaluation?) := by
  rw [evaluationOfPayload, payloadRemarks, payloadReply]
  cases Payload.parse text with
  | error fault => simp [Reply.notices, Reply.evaluation?]
  | ok answer => cases answer <;> simp [Reply.notices, Reply.evaluation?]

namespace Evaluator

theorem evaluate_behaviour (evaluator : Evaluator) (tree : FileTree) (label : String)
    (question : Question) :
    (evaluator.behaviour tree).evaluate label question = evaluator.evaluate tree label := by
  cases evaluator with
  | neutral => simp [Behaviour.evaluate, behaviour, evaluate, Reply.notices, Reply.evaluation?]
  | failing reason =>
      simp [Behaviour.evaluate, behaviour, evaluate, Reply.notices, Reply.evaluation?]
  | answering value =>
      simp [Behaviour.evaluate, behaviour, evaluate, Reply.notices, Reply.evaluation?]
  | payload text => exact (evaluationOfPayload_eq label text).symm
  | file path =>
      simp only [Behaviour.evaluate, behaviour, evaluate, fileReply, fileRemarks]
      cases tree.readText path with
      | ok text => exact (evaluationOfPayload_eq label (String.ofList text)).symm
      | error fault =>
          simp only
          split <;> simp [Reply.notices, Reply.evaluation?]

theorem evaluateSubmission_behaviour (evaluator : Evaluator) (tree : FileTree) (routes : Routes)
    (submission : Submission) :
    (evaluator.behaviour tree).evaluateSubmission routes submission =
      evaluateSubmission tree evaluator routes submission := by
  rw [Behaviour.evaluateSubmission, evaluateSubmission]
  congr 1
  funext metrics
  rw [evaluate_behaviour]
  congr 1
  funext opinion
  simp only [Submission.result, Recorded.ofExcept_bind]
  rfl

/-- The evaluators of the pipeline behave as functions of the question. -/
theorem evaluateInTurn_behaviour (evaluator : Evaluator) (tree : FileTree) (routes : Routes)
    (submissions : List Submission) :
    (evaluator.behaviour tree).evaluateInTurn routes submissions =
      evaluateAll tree evaluator routes submissions := by
  rw [Behaviour.evaluateInTurn, evaluateAll]
  congr 1
  funext submission
  exact evaluateSubmission_behaviour evaluator tree routes submission

end Evaluator

namespace Task

variable {α β : Type}

/-- Whatever the task learns about names, this is its answer. -/
def Settles (final : Except Fault α) : Task α → Prop
  | .answer value => value = final
  | .claim _ next => ∀ fresh, (next fresh).Settles final
  | .note _ next => next.Settles final

theorem settles_answer (final : Except Fault α) : (Task.answer final).Settles final := rfl

variable {final : Except Fault α}

theorem Settles.noteAll {next : Task α} (rest : next.Settles final) (notices : List Notice) :
    (noteAll notices next).Settles final := by
  induction notices with
  | nil => exact rest
  | cons notice notices ih => exact ih

theorem Settles.warnUnrouted {next : Task α} (rest : next.Settles final) (name : String) :
    (warnUnrouted name next).Settles final := by
  intro fresh
  cases fresh
  · exact rest
  · exact rest

theorem Settles.bind {task : Task α} {next : α → Task β} {nextFinal : α → Except Fault β}
    (first : task.Settles final) (rest : ∀ value, (next value).Settles (nextFinal value)) :
    (task.bind next).Settles (final >>= nextFinal) := by
  induction task with
  | answer value =>
      cases first
      cases final with
      | ok value => exact rest value
      | error fault => rfl
  | claim name others ih => exact fun fresh => ih fresh (first fresh)
  | note notice others ih => exact ih first

end Task

theorem settles_analysisTask (code language : Data) (routes : Routes) :
    (analysisTask code language routes).Settles (metricsOf code language routes) := by
  apply (Task.settles_answer (Language.familyOf language routes)).bind
  intro family
  cases family with
  | none =>
      apply (Task.settles_answer (unroutedName language)).bind
      intro name
      exact (Task.settles_answer (.ok Metrics.zero)).warnUnrouted name
  | some family =>
      apply (Task.settles_answer (codeText code)).bind
      intro text
      exact Task.settles_answer _

namespace Behaviour

/-- The result of a submission under an evaluator's behaviour, or why there is none. -/
def resultFor (behaviour : Behaviour) (routes : Routes) (submission : Submission) :
    Except Fault EvaluationResult := do
  let metrics ← metricsOf submission.code submission.language routes
  submission.result routes metrics (behaviour.reply (submission.question metrics)).evaluation?

variable (behaviour : Behaviour) (routes : Routes)

/-- The task of a submission goes on to one answer, whatever it learns. -/
theorem settles_submissionTask (submission : Submission) :
    (behaviour.submissionTask routes submission).Settles
      (behaviour.resultFor routes submission) := by
  apply (settles_analysisTask _ _ routes).bind
  intro metrics
  let question := submission.question metrics
  let label := labelOrDefault submission.label
  have replied : (behaviour.evaluationTask label question).Settles
      (.ok (behaviour.reply question).evaluation?) :=
    ((Task.settles_answer _).noteAll _).noteAll _
  exact replied.bind fun opinion =>
    Task.settles_answer (submission.result routes metrics opinion)

end Behaviour

end Scorecard
