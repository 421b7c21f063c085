import Scorecard.Evaluation.Task

/-!
# Pools of workers

A pool handles tasks by several workers at once. A worker takes the first task that waits and works
on it until its answer is there; any worker may make the next step. The answers are collected in the
order of the tasks. As soon as a fault is collected nothing else counts, and tasks that still wait
are called off.
-/

namespace Scorecard

/-- A task's place in a pool. -/
inductive Slot (α : Type) where
  /-- The task waits for a worker. -/
  | queued (task : Task α)
  /-- A worker has the task, and this is left of it. -/
  | running (task : Task α)
  | finished (answer : Except Fault α)
  /-- The task was called off before a worker took it. -/
  | cancelled

/-- The places of tasks in their order, and the journal that they share. -/
structure Pool (α : Type) where
  journal : Journal
  slots : List (Slot α)

namespace Slot

variable {α : Type}

/-- Whether a task waits for a worker. -/
def isQueued : Slot α → Bool
  | .queued _ => true
  | _ => false

/-- Whether a worker has the task. -/
def isRunning : Slot α → Bool
  | .running _ => true
  | _ => false

/-- Whether the task neither waits nor runs. -/
def isSettled : Slot α → Bool
  | .finished _ | .cancelled => true
  | _ => false

end Slot

namespace Pool

variable {α : Type}

/-- The answers in order, up to the first fault; none as long as one of them is missing. -/
def collect : List (Slot α) → Option (Except Fault (List α))
  | [] => some (.ok [])
  | .finished (.ok value) :: rest => (collect rest).map (·.map (value :: ·))
  | .finished (.error fault) :: _ => some (.error fault)
  | _ :: _ => none

/-- A pool in which all tasks wait. -/
def start (journal : Journal) (tasks : List (Task α)) : Pool α :=
  ⟨journal, tasks.map .queued⟩

/-- Whether no task of the pool waits or runs. -/
def isIdle (pool : Pool α) : Bool :=
  pool.slots.all Slot.isSettled

/-- One step of a pool with so many workers. -/
inductive Step (workers : Int) : Pool α → Pool α → Prop
  /-- A free worker takes the first task that waits. -/
  | start {journal : Journal} {earlier later : List (Slot α)} {task : Task α}
      (first : ∀ slot ∈ earlier, slot.isQueued = false)
      (free : ((earlier ++ later).countP Slot.isRunning : Nat) < workers) :
      Step workers ⟨journal, earlier ++ .queued task :: later⟩
        ⟨journal, earlier ++ .running task :: later⟩
  /-- A task asks about a name. -/
  | claim {journal : Journal} {earlier later : List (Slot α)} {name : String}
      {next : Bool → Task α} :
      Step workers ⟨journal, earlier ++ .running (.claim name next) :: later⟩
        ⟨(journal.claim name).2, earlier ++ .running (next (journal.claim name).1) :: later⟩
  /-- A task leaves a notice. -/
  | note {journal : Journal} {earlier later : List (Slot α)} {notice : Notice} {next : Task α} :
      Step workers ⟨journal, earlier ++ .running (.note notice next) :: later⟩
        ⟨journal.record notice, earlier ++ .running next :: later⟩
  /-- A worker is done with a task. -/
  | finish {journal : Journal} {earlier later : List (Slot α)} {answer : Except Fault α} :
      Step workers ⟨journal, earlier ++ .running (.answer answer) :: later⟩
        ⟨journal, earlier ++ .finished answer :: later⟩
  /-- A task that waits is called off, once a fault is collected. -/
  | cancel {journal : Journal} {earlier later : List (Slot α)} {task : Task α} {fault : Fault}
      (failed : collect (earlier ++ .queued task :: later) = some (.error fault)) :
      Step workers ⟨journal, earlier ++ .queued task :: later⟩
        ⟨journal, earlier ++ .cancelled :: later⟩

/-- The step in a place if its turn has come: a worker takes the task, or goes on with it. -/
def stepAt? (workers : Int) (pool : Pool α) (index : Nat) : Option (Pool α) :=
  let earlier := pool.slots.take index
  let later := pool.slots.drop (index + 1)
  match pool.slots[index]? with
  | some (.queued task) =>
      if earlier.all (!·.isQueued) ∧ ((earlier ++ later).countP Slot.isRunning : Nat) < workers then
        some ⟨pool.journal, earlier ++ .running task :: later⟩
      else none
  | some (.running (.claim name next)) =>
      some ⟨(pool.journal.claim name).2,
        earlier ++ .running (next (pool.journal.claim name).1) :: later⟩
  | some (.running (.note notice next)) =>
      some ⟨pool.journal.record notice, earlier ++ .running next :: later⟩
  | some (.running (.answer answer)) => some ⟨pool.journal, earlier ++ .finished answer :: later⟩
  | _ => none

/-- The pool after steps in these places, one after the other. -/
def follow? (workers : Int) (pool : Pool α) (schedule : List Nat) : Option (Pool α) :=
  schedule.foldlM (stepAt? workers) pool

end Pool

end Scorecard
