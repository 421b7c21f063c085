import Scorecard.Evaluation.Behaviour

/-!
# Tasks

A task is what is left of a computation whose journal others use too. It goes on in steps, each of
which is atomic: to look a name up among the remembered ones, where it joins them if it is new, and
to leave one notice. Between two steps of a task the journal may change, so what a task learns about
a name is not known before it asks.

A warning takes two steps. The name is claimed first, so that no other task warns about it, and the
notice follows later.
-/

namespace Scorecard

/-- Looks a name up among the remembered ones and tells whether it is new. A new name joins them. -/
def Journal.claim (journal : Journal) (name : String) : Bool × Journal :=
  if name ∈ journal.warned then (false, journal)
  else (true, { journal with warned := remember journal.warned name })

/-- What is left of a computation. -/
inductive Task (α : Type) where
  /-- The computation has come to its end. -/
  | answer (value : Except Fault α)
  /-- It asks whether a name is new and goes on with what it learns. -/
  | claim (name : String) (next : Bool → Task α)
  /-- It leaves a notice. -/
  | note (notice : Notice) (next : Task α)

namespace Task

variable {α β : Type}

/-- The task that goes on with the answer of another one. -/
def bind : Task α → (α → Task β) → Task β
  | .answer (.ok value), next => next value
  | .answer (.error fault), _ => .answer (.error fault)
  | .claim name rest, next => .claim name fun fresh => (rest fresh).bind next
  | .note notice rest, next => .note notice (rest.bind next)

instance : Monad Task where
  pure value := .answer (.ok value)
  bind := bind

/-- The task that leaves notices and goes on with another one. -/
def noteAll : List Notice → Task α → Task α
  | [], next => next
  | notice :: rest, next => .note notice (noteAll rest next)

/-- Warns about the language with a name, unless it is remembered. -/
def warnUnrouted (name : String) (next : Task α) : Task α :=
  .claim name fun fresh => if fresh then .note (.unroutedLanguage name) next else next

/-- The computation of a task that is alone with its journal. -/
def alone : Task α → Recorded α
  | .answer value => Recorded.ofExcept value
  | .claim name next => do
      let fresh ← modifyGet (·.claim name)
      (next fresh).alone
  | .note notice next => do
      Recorded.note notice
      next.alone

end Task

/-- The analysis of a piece of code as a task. -/
def analysisTask (code language : Data) (routes : Routes) : Task Metrics := do
  match ← Task.answer (Language.familyOf language routes) with
  | none =>
      let name ← Task.answer (unroutedName language)
      Task.warnUnrouted name (pure .zero)
  | some family => return family.rules.analyze (← Task.answer (codeText code))

/-- What an evaluator does about a question for a submission with a label, as a task. -/
def Behaviour.evaluationTask (behaviour : Behaviour) (label : String) (question : Question) :
    Task (Option Evaluation) :=
  Task.noteAll (behaviour.remarks question)
    (Task.noteAll ((behaviour.reply question).notices label)
      (pure (behaviour.reply question).evaluation?))

/-- The result of a submission under an evaluator's behaviour, as a task. -/
def Behaviour.submissionTask (behaviour : Behaviour) (routes : Routes) (submission : Submission) :
    Task EvaluationResult := do
  let metrics ← analysisTask submission.code submission.language routes
  let opinion ← behaviour.evaluationTask (labelOrDefault submission.label)
    (submission.question metrics)
  Task.answer (submission.result routes metrics opinion)

end Scorecard
