import Scorecard.Proofs.Evaluation.Task

/-!
# Runs of a pool

Whatever steps a pool takes, and in whatever order, the answer of each task is the one it settles
for, so what is collected in the order of the tasks is the same in every run. No run goes on for
ever, and a pool that cannot take another step has collected its answers. One of the runs handles
the tasks one after the other, each alone with the journal.
-/

namespace Scorecard

open Relation

variable {α : Type}

namespace Slot

/-- The task in the place gives this answer, unless it is called off. -/
def Holds : Slot α → Except Fault α → Prop
  | .queued task, final => task.Settles final
  | .running task, final => task.Settles final
  | .finished answer, final => answer = final
  | .cancelled, _ => True

end Slot

namespace Pool

variable {workers : ℤ} {pool next : Pool α} {finals : List (Except Fault α)}

/-- The answers that the tasks of a pool settle for. -/
def Holds (pool : Pool α) (finals : List (Except Fault α)) : Prop :=
  List.Forall₂ Slot.Holds pool.slots finals

theorem forall₂_replace {earlier later : List (Slot α)} {old new : Slot α}
    (holds : List.Forall₂ Slot.Holds (earlier ++ old :: later) finals)
    (keeps : ∀ final, old.Holds final → new.Holds final) :
    List.Forall₂ Slot.Holds (earlier ++ new :: later) finals := by
  induction earlier generalizing finals with
  | nil =>
      cases holds with
      | cons first rest => exact .cons (keeps _ first) rest
  | cons slot earlier ih =>
      cases holds with
      | cons first rest => exact .cons first (ih rest)

/-- No step changes what a task settles for. -/
theorem Step.holds (step : Step workers pool next) (holds : pool.Holds finals) :
    next.Holds finals := by
  cases step with
  | start first free => exact forall₂_replace holds fun final settles => settles
  | claim => exact forall₂_replace holds fun final settles => settles _
  | note => exact forall₂_replace holds fun final settles => settles
  | finish => exact forall₂_replace holds fun final settles => settles
  | cancel failed => exact forall₂_replace holds fun final settles => trivial

theorem holds_start {tasks : List (Task α)}
    (settle : List.Forall₂ (fun task final => task.Settles final) tasks finals)
    (journal : Journal) : (start journal tasks).Holds finals := by
  rw [Holds, start, List.forall₂_map_left_iff]
  exact settle

theorem holds_of_run (run : ReflTransGen (Step workers) pool next) (holds : pool.Holds finals) :
    next.Holds finals := by
  induction run with
  | refl => exact holds
  | tail run step ih => exact step.holds ih

/-- Nothing is collected without an answer in the first place: a fault there is the outcome, and a
value there stands before what is collected behind it. -/
theorem collect_cons_eq_some_iff {slot : Slot α} {slots : List (Slot α)}
    {outcome : Except Fault (List α)} :
    collect (slot :: slots) = some outcome ↔
      (∃ fault, slot = .finished (.error fault) ∧ outcome = .error fault) ∨
        ∃ value others, slot = .finished (.ok value) ∧ collect slots = some others ∧
          outcome = others.map (value :: ·) := by
  cases slot with
  | queued task => simp [collect]
  | running task => simp [collect]
  | cancelled => simp [collect]
  | finished answer =>
      cases answer with
      | error fault => simp [collect, eq_comm]
      | ok value => simp [collect, eq_comm]

/-- What is collected is what the tasks settle for, in their order and up to the first fault. -/
theorem collect_eq {slots : List (Slot α)} {outcome : Except Fault (List α)}
    (holds : List.Forall₂ Slot.Holds slots finals) (collected : collect slots = some outcome) :
    outcome = finals.mapM id := by
  induction holds generalizing outcome with
  | nil =>
      cases collected
      rfl
  | cons first rest ih =>
      rcases collect_cons_eq_some_iff.mp collected with
        ⟨fault, rfl, rfl⟩ | ⟨value, others, rfl, found, rfl⟩
      · cases first
        rfl
      · cases first
        rw [List.mapM_cons, ← ih found]
        cases others <;> rfl

/-- Once something is collected, a place that is still open does not count. -/
theorem collect_replace {earlier later : List (Slot α)} {old new : Slot α}
    {outcome : Except Fault (List α)} (unsettled : old.isSettled = false)
    (collected : collect (earlier ++ old :: later) = some outcome) :
    collect (earlier ++ new :: later) = some outcome := by
  induction earlier generalizing outcome with
  | nil =>
      rcases collect_cons_eq_some_iff.mp collected with ⟨fault, rfl, _⟩ | ⟨value, others, rfl, _⟩
      · cases unsettled
      · cases unsettled
  | cons slot earlier ih =>
      rcases collect_cons_eq_some_iff.mp collected with
        ⟨fault, rfl, rfl⟩ | ⟨value, others, rfl, found, rfl⟩
      · rfl
      · exact collect_cons_eq_some_iff.mpr (.inr ⟨value, others, rfl, ih found, rfl⟩)

theorem Step.collect (step : Step workers pool next) {outcome : Except Fault (List α)}
    (collected : collect pool.slots = some outcome) : Pool.collect next.slots = some outcome := by
  cases step with
  | start first free => exact collect_replace rfl collected
  | claim => exact collect_replace rfl collected
  | note => exact collect_replace rfl collected
  | finish => exact collect_replace rfl collected
  | cancel failed => exact collect_replace rfl collected

/-- Tasks are called off only after a fault was collected. -/
def FailsIfCancelled (pool : Pool α) : Prop :=
  .cancelled ∈ pool.slots → ∃ fault, collect pool.slots = some (.error fault)

theorem Step.failsIfCancelled (step : Step workers pool next) (fails : pool.FailsIfCancelled) :
    next.FailsIfCancelled := by
  intro mem
  by_cases before : .cancelled ∈ pool.slots
  · rcases fails before with ⟨fault, collected⟩
    exact ⟨fault, step.collect collected⟩
  · cases step with
    | cancel failed => exact ⟨_, collect_replace rfl failed⟩
    | start first free => exact absurd (by simpa using mem) before
    | claim => exact absurd (by simpa using mem) before
    | note => exact absurd (by simpa using mem) before
    | finish => exact absurd (by simpa using mem) before

theorem failsIfCancelled_of_run {journal : Journal} {tasks : List (Task α)}
    (run : ReflTransGen (Step workers) (start journal tasks) pool) : pool.FailsIfCancelled := by
  induction run with
  | refl =>
      intro mem
      simp [start] at mem
  | tail run step ih => exact step.failsIfCancelled ih

/-- A pool whose tasks are all done or called off has collected its answers. -/
theorem exists_collect {slots : List (Slot α)} (settled : ∀ slot ∈ slots, slot.isSettled = true)
    (fails : .cancelled ∈ slots → ∃ fault, collect slots = some (.error fault)) :
    ∃ outcome, collect slots = some outcome := by
  induction slots with
  | nil => exact ⟨_, rfl⟩
  | cons slot slots ih =>
      rw [List.forall_mem_cons] at settled
      cases slot with
      | queued task => cases settled.1
      | running task => cases settled.1
      | cancelled =>
          rcases fails List.mem_cons_self with ⟨fault, collected⟩
          exact ⟨_, collected⟩
      | finished answer =>
          cases answer with
          | error fault => exact ⟨_, rfl⟩
          | ok value =>
              have rest : ∃ outcome, collect slots = some outcome := by
                apply ih settled.2
                intro mem
                rcases fails (List.mem_cons_of_mem _ mem) with ⟨fault, collected⟩
                rcases Option.map_eq_some_iff.mp collected with ⟨others, found, failed⟩
                cases others with
                | ok values => cases failed
                | error other => exact ⟨other, found⟩
              rcases rest with ⟨outcome, collected⟩
              exact ⟨_, by rw [collect, collected]; rfl⟩

theorem exists_first_queued {slots : List (Slot α)} (waits : ∃ slot ∈ slots, slot.isQueued = true) :
    ∃ (earlier : List (Slot α)) (task : Task α) (later : List (Slot α)),
      slots = earlier ++ Slot.queued task :: later ∧ ∀ slot ∈ earlier, slot.isQueued = false := by
  rcases Option.isSome_iff_exists.mp (List.find?_isSome.mpr waits) with ⟨slot, found⟩
  rcases List.find?_eq_some_iff_append.mp found with ⟨isQueued, earlier, later, split, none⟩
  cases slot with
  | queued task => exact ⟨earlier, task, later, split, by simpa using none⟩
  | running task => cases isQueued
  | finished answer => cases isQueued
  | cancelled => cases isQueued

/-- As long as a task waits or runs, some step is possible. -/
theorem exists_step (positive : 0 < workers) (busy : pool.isIdle = false) :
    ∃ next, Step workers pool next := by
  rcases pool with ⟨journal, slots⟩
  by_cases runs : ∃ slot ∈ slots, slot.isRunning = true
  · rcases runs with ⟨slot, mem, isRunning⟩
    rcases List.append_of_mem mem with ⟨earlier, later, rfl⟩
    cases slot with
    | queued task => cases isRunning
    | finished answer => cases isRunning
    | cancelled => cases isRunning
    | running task =>
        cases task with
        | answer value => exact ⟨_, .finish⟩
        | claim name next => exact ⟨_, .claim⟩
        | note notice next => exact ⟨_, .note⟩
  · have waits : ∃ slot ∈ slots, slot.isQueued = true := by
      simp only [isIdle, List.all_eq_false] at busy
      rcases busy with ⟨slot, mem, unsettled⟩
      refine ⟨slot, mem, ?_⟩
      have stands : slot.isRunning = false := by
        by_contra running
        exact runs ⟨slot, mem, by simpa using running⟩
      cases slot <;> simp_all [Slot.isSettled, Slot.isQueued, Slot.isRunning]
    rcases exists_first_queued waits with ⟨earlier, task, later, rfl, first⟩
    refine ⟨_, .start first ?_⟩
    have none : (earlier ++ later).countP Slot.isRunning = 0 := by
      rw [List.countP_eq_zero]
      intro slot mem running
      refine runs ⟨slot, ?_, running⟩
      rcases List.mem_append.mp mem with mem | mem
      · exact List.mem_append_left _ mem
      · exact List.mem_append_right _ (List.mem_cons_of_mem _ mem)
    rw [none]
    exact positive

end Pool

/-- How many steps a task takes at most before its answer is there. -/
def Task.size : Task α → ℕ
  | .answer _ => 0
  | .claim _ next => 1 + max (next true).size (next false).size
  | .note _ next => 1 + next.size

/-- How many steps a pool takes at most for a place: a worker takes the task, works on it and is
done. -/
def Slot.size : Slot α → ℕ
  | .queued task => task.size + 2
  | .running task => task.size + 1
  | .finished _ => 0
  | .cancelled => 0

namespace Pool

variable {workers : ℤ} {pool next : Pool α}

/-- How many steps a pool takes at most. -/
def size (pool : Pool α) : ℕ :=
  (pool.slots.map Slot.size).sum

theorem Step.size_lt (step : Step workers pool next) : next.size < pool.size := by
  cases step with
  | start first free => simp [size, Slot.size]
  | note => simp [size, Slot.size, Task.size]
  | finish => simp [size, Slot.size]
  | cancel failed => simp [size, Slot.size]
  | @claim journal earlier later name next =>
      have shorter :
          (next (journal.claim name).1).size ≤ max (next true).size (next false).size := by
        cases (journal.claim name).1
        · exact le_max_right _ _
        · exact le_max_left _ _
      simp [size, Slot.size, Task.size]
      omega

/-- No run goes on for ever. -/
theorem not_forever (run : ℕ → Pool α) : ¬ ∀ time, Step workers (run time) (run (time + 1)) := by
  intro forever
  have shrinks : ∀ time, (run time).size + time ≤ (run 0).size := by
    intro time
    induction time with
    | zero => exact le_rfl
    | succ time ih =>
        have smaller := (forever time).size_lt
        omega
  have impossible := shrinks ((run 0).size + 1)
  omega

/-- A worker that has a task may work on it to its end while the others rest. -/
theorem run_alone (task : Task α) (journal : Journal) (earlier later : List (Slot α)) :
    ReflTransGen (Step workers) ⟨journal, earlier ++ .running task :: later⟩
      ⟨(task.alone.runOn journal).2, earlier ++
        .finished (task.alone.runOn journal).1 :: later⟩ := by
  induction task generalizing journal with
  | answer value => cases value <;> exact .single .finish
  | claim name next ih => exact .head .claim (ih (journal.claim name).1 (journal.claim name).2)
  | note notice next ih => exact .head .note (ih (journal.record notice))

/-- Behind a fault that was collected all that waits is called off. -/
theorem run_cancel {earlier : List (Slot α)} {fault : Fault}
    (failed : ∀ later : List (Slot α), collect (earlier ++ later) = some (.error fault))
    (journal : Journal) (tasks : List (Task α)) :
    ReflTransGen (Step workers) ⟨journal, earlier ++ tasks.map Slot.queued⟩
      ⟨journal, earlier ++ tasks.map fun _ => Slot.cancelled⟩ := by
  induction tasks generalizing earlier with
  | nil => exact .refl
  | cons task tasks ih =>
      refine .head (.cancel (failed _)) ?_
      have others := @ih (earlier ++ [.cancelled]) fun later => by simpa using failed _
      simpa using others

theorem collect_values (values : List α) (rest : List (Slot α)) :
    collect (values.map (fun value => Slot.finished (.ok value)) ++ rest) =
      (collect rest).map fun outcome => outcome.map (values ++ ·) := by
  induction values with
  | nil =>
      change collect rest = _
      cases collect rest with
      | none => rfl
      | some outcome => cases outcome <;> rfl
  | cons value values ih =>
      rw [List.map_cons, List.cons_append, collect, ih]
      cases collect rest with
      | none => rfl
      | some outcome => cases outcome <;> rfl

/-- Behind answers that are there, the first task that waits is taken and worked on to its end. -/
theorem run_first (positive : 0 < workers) (task : Task α) (tasks : List (Task α)) (values : List α)
    (journal : Journal) :
    ReflTransGen (Step workers)
      ⟨journal, values.map (fun value => Slot.finished (.ok value)) ++
        Slot.queued task :: tasks.map Slot.queued⟩
      ⟨(task.alone.runOn journal).2, values.map (fun value => Slot.finished (.ok value)) ++
        Slot.finished (task.alone.runOn journal).1 :: tasks.map Slot.queued⟩ := by
  refine .head (.start ?_ ?_) (run_alone task journal _ _)
  · simp [Slot.isQueued]
  · have none : (values.map (fun value => Slot.finished (.ok value)) ++
        tasks.map Slot.queued).countP Slot.isRunning = 0 := by
      simp [Slot.isRunning]
    rw [none]
    exact positive

/-- Behind answers that are there, the tasks that wait are handled one after the other, up to the
first fault. -/
theorem exists_run_inTurn (positive : 0 < workers) (tasks : List (Task α)) (values : List α)
    (journal : Journal) :
    ∃ slots : List (Slot α),
      ReflTransGen (Step workers)
        ⟨journal, values.map (fun value => Slot.finished (.ok value)) ++ tasks.map Slot.queued⟩
        ⟨((tasks.mapM Task.alone).runOn journal).2, slots⟩ ∧
      slots.all Slot.isSettled = true ∧
      collect slots =
        some (((tasks.mapM Task.alone).runOn journal).1.map (values ++ ·)) := by
  -- The induction is on the tasks that wait; the value of the first one joins the answers in front
  -- of them.
  induction tasks generalizing values journal with
  | nil =>
      refine ⟨values.map (fun value => .finished (.ok value)), ?_, ?_, ?_⟩
      · simpa using .refl
      · simp [Slot.isSettled]
      · have kept := collect_values values []
        rw [List.append_nil] at kept
        exact kept
  | cons task tasks ih =>
      have worked := run_first positive task tasks values journal
      rw [List.mapM_cons, Recorded.runOn_bind]
      rcases ended : task.alone.runOn journal with ⟨answer, later⟩
      rw [ended] at worked
      cases answer with
      | ok value =>
          rcases ih (values ++ [value]) later with ⟨slots, run, settled, collected⟩
          have goesOn := worked.trans (by simpa using run)
          simp only [Recorded.runOn_bind]
          rcases others : (tasks.mapM Task.alone).runOn later with ⟨outcome, last⟩
          rw [others] at goesOn collected
          refine ⟨slots, ?_, settled, ?_⟩
          · cases outcome <;> exact goesOn
          · rw [collected]
            cases outcome with
            | ok results =>
                change some (Except.ok ((values ++ [value]) ++ results)) =
                  some (Except.ok (values ++ value :: results))
                rw [List.append_assoc, List.singleton_append]
            | error fault => rfl
      | error fault =>
          have failed : ∀ rest, collect ((values.map (fun value => .finished (.ok value)) ++
              [.finished (.error fault)]) ++ rest) = some (.error fault) := by
            intro rest
            rw [List.append_assoc, collect_values]
            rfl
          refine ⟨_, worked.trans ?_, ?_, failed (tasks.map fun _ => .cancelled)⟩
          · simpa using run_cancel failed later tasks
          · simp [Slot.isSettled]

theorem step_of_stepAt? {index : ℕ} (taken : pool.stepAt? workers index = some next) :
    Step workers pool next := by
  rcases pool with ⟨journal, slots⟩
  simp only [stepAt?] at taken
  cases found : slots[index]? with
  | none =>
      rw [found] at taken
      cases taken
  | some slot =>
      rcases List.getElem?_eq_some_iff.mp found with ⟨inside, rfl⟩
      have split : slots = slots.take index ++ slots[index] :: slots.drop (index + 1) := by
        rw [List.getElem_cons_drop, List.take_append_drop]
      rw [found] at taken
      generalize slots.take index = earlier at split taken
      generalize slots.drop (index + 1) = later at split taken
      generalize slots[index] = slot at split taken
      subst split
      cases slot with
      | queued task =>
          rcases Option.ite_none_right_eq_some.mp taken with ⟨⟨first, free⟩, ⟨⟩⟩
          exact .start (by simpa using first) free
      | running task =>
          cases task with
          | answer answer =>
              cases taken
              exact .finish
          | claim name rest =>
              cases taken
              exact .claim
          | note notice rest =>
              cases taken
              exact .note
      | finished answer => cases taken
      | cancelled => cases taken

/-- A schedule that can be followed is a run. -/
theorem run_of_follow? {schedule : List ℕ} (followed : pool.follow? workers schedule = some next) :
    ReflTransGen (Step workers) pool next := by
  induction schedule generalizing pool with
  | nil =>
      cases followed
      exact .refl
  | cons index schedule ih =>
      rcases Option.bind_eq_some_iff.mp followed with ⟨middle, taken, rest⟩
      exact .head (step_of_stepAt? taken) (ih rest)

end Pool

end Scorecard
