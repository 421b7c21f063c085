import Scorecard.Proofs.Evaluation.Pool

/-!
# Evaluating with workers

Several workers give the results that one gives after the other, since each task settles for its
answer. The warnings may come in another order. As long as no more names occur than are remembered,
none is forgotten, and then a ledger can be kept: what is remembered is what was warned about,
together with what running tasks have claimed and still owe a notice for. Claiming a name is one
step that looks it up and remembers it, so no two tasks owe the same notice.
-/

namespace Scorecard

open Relation

variable {α β : Type}

/-- The languages that were warned about, in order. -/
def Journal.warnings (journal : Journal) : List String :=
  journal.notices.filterMap Notice.unrouted?

/-- The analysis that the evaluation of a submission begins with. -/
def Submission.call (submission : Submission) (routes : Routes) : AnalysisCall :=
  ⟨submission.code, submission.language, routes⟩

namespace Task

/-- The names that the task has still to ask about. -/
def asked : Task α → List String
  | .answer _ => []
  | .claim name next => name :: (next false).asked
  | .note _ next => next.asked

/-- The names that the task has claimed and not yet warned about. -/
def owed : Task α → List String
  | .answer _ => []
  | .claim _ _ => []
  | .note notice next => notice.unrouted?.toList ++ next.owed

/-- The task warns about just the names that it asks about and finds new. -/
def Warns : Task α → Prop
  | .answer _ => True
  | .claim name next => next true = .note (.unroutedLanguage name) (next false) ∧
      (next false).owed = [] ∧ (next false).Warns
  | .note _ next => next.Warns

/-- The task has nothing to do with warnings. -/
structure Quiet (task : Task α) : Prop where
  asked : task.asked = []
  owed : task.owed = []
  warns : task.Warns

theorem quiet_answer (final : Except Fault α) : (Task.answer final).Quiet :=
  ⟨rfl, rfl, trivial⟩

theorem Quiet.note {next : Task α} (quiet : next.Quiet) {notice : Notice}
    (silent : notice.unrouted? = none) : (Task.note notice next).Quiet where
  asked := quiet.asked
  owed := by simp [Task.owed, silent, quiet.owed]
  warns := quiet.warns

theorem Quiet.noteAll {next : Task α} (quiet : next.Quiet) {notices : List Notice}
    (silent : ∀ notice ∈ notices, notice.unrouted? = none) : (Task.noteAll notices next).Quiet := by
  induction notices with
  | nil => exact quiet
  | cons notice notices ih =>
      rw [List.forall_mem_cons] at silent
      exact (ih silent.2).note silent.1

theorem noteAll_bind (notices : List Notice) (next : Task α) (rest : α → Task β) :
    (noteAll notices next).bind rest = noteAll notices (next.bind rest) := by
  induction notices with
  | nil => rfl
  | cons notice notices ih => exact congrArg (Task.note notice) ih

theorem warnUnrouted_bind (name : String) (next : Task α) (rest : α → Task β) :
    (warnUnrouted name next).bind rest = warnUnrouted name (next.bind rest) := by
  apply congrArg (Task.claim name)
  funext fresh
  cases fresh <;> rfl

/-- The task asks about the name, if there is one, warns about it if it is new, and is quiet
otherwise. -/
structure WarnsAbout (task : Task α) (name : Option String) : Prop where
  asked : task.asked = name.toList
  owed : task.owed = []
  warns : task.Warns

theorem Quiet.warnUnrouted {next : Task α} (quiet : next.Quiet) (name : String) :
    (warnUnrouted name next).WarnsAbout (some name) where
  asked := by simp [Task.warnUnrouted, Task.asked, quiet.asked]
  owed := rfl
  warns := ⟨rfl, quiet.owed, quiet.warns⟩

end Task

theorem Reply.unrouted?_notices (reply : Reply) (label : String) :
    ∀ notice ∈ reply.notices label, notice.unrouted? = none := by
  cases reply <;> simp [notices, Notice.unrouted?]

theorem analysisTask_bind_warnsAbout {code language : Data} {routes : Routes}
    {next : Metrics → Task α} (quiet : ∀ metrics, (next metrics).Quiet) :
    ((analysisTask code language routes).bind next).WarnsAbout
      (AnalysisCall.unrouted? ⟨code, language, routes⟩) := by
  have silent : ∀ fault, (Task.answer (α := α) (.error fault)).WarnsAbout none :=
    fun fault => ⟨rfl, rfl, trivial⟩
  have warnsAbout_none : ∀ metrics, (next metrics).WarnsAbout none :=
    fun metrics => ⟨(quiet metrics).asked, (quiet metrics).owed, (quiet metrics).warns⟩
  rw [AnalysisCall.unrouted?]
  change (Task.bind (Task.bind _ _) _).WarnsAbout _
  cases Language.familyOf language routes with
  | error fault => exact silent fault
  | ok family =>
      cases family with
      | some family =>
          cases codeText code with
          | error fault => exact silent fault
          | ok text => exact warnsAbout_none _
      | none =>
          cases unroutedName language with
          | error fault => exact silent fault
          | ok name =>
              change ((Task.warnUnrouted name (pure .zero)).bind next).WarnsAbout _
              rw [Task.warnUnrouted_bind]
              exact (quiet .zero).warnUnrouted name

namespace Behaviour

variable (behaviour : Behaviour) (routes : Routes)

theorem submissionTask_warnsAbout (submission : Submission) :
    (behaviour.submissionTask routes submission).WarnsAbout (submission.call routes).unrouted? := by
  apply analysisTask_bind_warnsAbout
  intro metrics
  change (Task.bind (Task.noteAll _ (Task.noteAll _ _)) _).Quiet
  rw [Task.noteAll_bind, Task.noteAll_bind]
  apply (Task.Quiet.noteAll _ (Reply.unrouted?_notices _ _)).noteAll
  · exact behaviour.unrouted?_remarks _
  · exact Task.quiet_answer _

end Behaviour

namespace Slot

/-- The names that the task in the place has still to ask about. -/
def asked : Slot α → List String
  | .queued task => task.asked
  | .running task => task.asked
  | _ => []

/-- The names that the task in the place has claimed and not yet warned about. -/
def owed : Slot α → List String
  | .running task => task.owed
  | _ => []

/-- The task in the place warns about what it finds new, and owes nothing before it is taken. -/
def Warns : Slot α → Prop
  | .queued task => task.Warns ∧ task.owed = []
  | .running task => task.Warns
  | _ => True

theorem asked_eq_nil {slot : Slot α} (settled : slot.isSettled = true) : slot.asked = [] := by
  cases slot with
  | queued task => cases settled
  | running task => cases settled
  | finished answer => rfl
  | cancelled => rfl

theorem owed_eq_nil {slot : Slot α} (settled : slot.isSettled = true) : slot.owed = [] := by
  cases slot with
  | queued task => rfl
  | running task => cases settled
  | finished answer => rfl
  | cancelled => rfl

end Slot

namespace Pool

variable {workers : ℤ} {pool next : Pool α} {base names : List String}

/-- What was warned about before, and what is remembered, is what was warned about or is owed. -/
structure Ledger (base names : List String) (pool : Pool α) : Prop where
  warns : ∀ slot ∈ pool.slots, slot.Warns
  nodup : pool.journal.warned.Nodup
  balance : ∀ name, pool.journal.warnings.count name + (pool.slots.flatMap Slot.owed).count name =
    base.count name + pool.journal.warned.count name
  known : ∀ name, name ∈ pool.journal.warned ∨ name ∈ pool.slots.flatMap Slot.asked → name ∈ names
  complete : .cancelled ∉ pool.slots →
    ∀ name ∈ names, name ∈ pool.journal.warned ∨ name ∈ pool.slots.flatMap Slot.asked

theorem warnings_record (journal : Journal) (notice : Notice) :
    (journal.record notice).warnings = journal.warnings ++ notice.unrouted?.toList := by
  simp only [Journal.warnings, Journal.record, List.filterMap_append]
  cases found : notice.unrouted? <;> simp [found]

theorem warned_record (journal : Journal) (notice : Notice) :
    (journal.record notice).warned = journal.warned := rfl

/-- As long as there are no more names than are remembered, a new one joins them. -/
theorem claim_eq {journal : Journal} {name : String} (nodup : journal.warned.Nodup)
    (known : ∀ other ∈ name :: journal.warned, other ∈ names)
    (few : names.toFinset.card ≤ warnedLimit) (fresh : name ∉ journal.warned) :
    journal.claim name = (true, { journal with warned := journal.warned ++ [name] }) := by
  have within : (name :: journal.warned).toFinset ⊆ names.toFinset := by
    intro other mem
    exact List.mem_toFinset.mpr (known other (List.mem_toFinset.mp mem))
  have room : (name :: journal.warned).length ≤ warnedLimit := by
    rw [← List.toFinset_card_of_nodup (List.nodup_cons.mpr ⟨fresh, nodup⟩)]
    exact (Finset.card_le_card within).trans few
  rw [Journal.claim, if_neg fresh, Journal.remember, if_neg]
  simpa using room

/-- A ledger is kept if what a place asks is either still asked or remembered afterwards, and what
is remembered beyond that before is either owed or was warned about. -/
theorem Ledger.replace {journal after : Journal} {earlier later : List (Slot α)} {old new : Slot α}
    (ledger : Ledger base names ⟨journal, earlier ++ old :: later⟩) (running : old ≠ .cancelled)
    (warns : new.Warns) (nodup : after.warned.Nodup)
    (balance : ∀ name, after.warnings.count name + new.owed.count name + journal.warned.count name =
      journal.warnings.count name + old.owed.count name + after.warned.count name)
    (moves : ∀ name, name ∈ after.warned ∨ name ∈ new.asked ↔
      name ∈ journal.warned ∨ name ∈ old.asked) :
    Ledger base names ⟨after, earlier ++ new :: later⟩ where
  warns := by
    have before := ledger.warns
    rw [List.forall_mem_append, List.forall_mem_cons] at before ⊢
    exact ⟨before.1, warns, before.2.2⟩
  nodup := nodup
  balance name := by
    have before := ledger.balance name
    have change := balance name
    simp only [List.flatMap_append, List.flatMap_cons, List.count_append] at before ⊢
    omega
  known name := by
    have before := ledger.known name
    have change := moves name
    simp only [List.flatMap_append, List.flatMap_cons, List.mem_append] at before ⊢
    grind
  complete := by
    intro none name mem
    simp only [List.mem_append, List.mem_cons, not_or] at none
    have before := ledger.complete (by simp [none.1, none.2.2, running.symm]) name mem
    have change := moves name
    simp only [List.flatMap_append, List.flatMap_cons, List.mem_append] at before ⊢
    grind

section

variable {journal : Journal} {earlier later : List (Slot α)}

/-- A name that is known is not asked about again, and there is nothing to warn about. -/
theorem Ledger.claim_known {name : String} {next : Bool → Task α}
    (ledger : Ledger base names ⟨journal, earlier ++ .running (.claim name next) :: later⟩)
    (known : name ∈ journal.warned) :
    Ledger base names ⟨journal, earlier ++ .running (next false) :: later⟩ := by
  have warns : (Slot.running (.claim name next)).Warns := ledger.warns _ (by simp)
  rcases warns with ⟨_, owesNothing, warns⟩
  refine ledger.replace (by simp) warns ledger.nodup ?_ ?_
  · intro other
    simp only [Slot.owed, Task.owed, owesNothing]
  · intro other
    simp only [Slot.asked, Task.asked, List.mem_cons]
    have already : other = name → other ∈ journal.warned := fun same => same ▸ known
    tauto

/-- A name that is new is remembered, and the task owes the warning about it. -/
theorem Ledger.claim_new {name : String} {next : Bool → Task α}
    (few : names.toFinset.card ≤ warnedLimit)
    (ledger : Ledger base names ⟨journal, earlier ++ .running (.claim name next) :: later⟩)
    (fresh : name ∉ journal.warned) :
    Ledger base names
      ⟨(journal.claim name).2, earlier ++ .running (next (journal.claim name).1) :: later⟩ := by
  have warns : (Slot.running (.claim name next)).Warns := ledger.warns _ (by simp)
  rcases warns with ⟨warnsIfNew, owesNothing, warns⟩
  have within : ∀ other ∈ name :: journal.warned, other ∈ names := by
    intro other mem
    apply ledger.known other
    rcases List.mem_cons.mp mem with rfl | mem
    · exact .inr (by simp [Slot.asked, Task.asked])
    · exact .inl mem
  rw [claim_eq ledger.nodup within few fresh]
  refine ledger.replace (by simp) ?_ ?_ ?_ ?_
  · change (next true).Warns
    rw [warnsIfNew]
    exact warns
  · exact ledger.nodup.append (List.nodup_singleton name) (by simpa using fresh)
  · intro other
    simp only [Slot.owed, warnsIfNew, Task.owed, owesNothing, Notice.unrouted?, List.count_append,
      Journal.warnings]
    simp
    omega
  · intro other
    simp only [Slot.asked, warnsIfNew, Task.asked, List.mem_append, List.mem_cons]
    simp
    tauto

/-- A task that is called off asks no more. It had claimed nothing, so nothing stays owed. -/
theorem Ledger.cancel {task : Task α}
    (ledger : Ledger base names ⟨journal, earlier ++ .queued task :: later⟩) :
    Ledger base names ⟨journal, earlier ++ .cancelled :: later⟩ := by
  have before := ledger.warns
  have owesNothing : task.Warns ∧ task.owed = [] := before (.queued task) (by simp)
  constructor
  case warns =>
    rw [List.forall_mem_append, List.forall_mem_cons] at before ⊢
    exact ⟨before.1, trivial, before.2.2⟩
  case nodup => exact ledger.nodup
  case balance => simpa [Slot.owed] using ledger.balance
  case known =>
    intro name mem
    apply ledger.known name
    simp only [List.flatMap_append, List.flatMap_cons, Slot.asked, List.mem_append] at mem ⊢
    tauto
  case complete =>
    intro none
    exact absurd (by simp) none

end

theorem Step.ledger (step : Step workers pool next) (few : names.toFinset.card ≤ warnedLimit)
    (ledger : pool.Ledger base names) : next.Ledger base names := by
  cases step with
  | @start journal earlier later task first free =>
      have warns : (Slot.queued task).Warns := ledger.warns _ (by simp)
      refine ledger.replace (by simp) warns.1 ledger.nodup ?_ ?_
      · intro name
        simp only [Slot.owed, warns.2]
      · exact fun name => Iff.rfl
  | @claim journal earlier later name next =>
      by_cases known : name ∈ journal.warned
      · rw [Journal.claim, if_pos known]
        exact ledger.claim_known known
      · exact ledger.claim_new few known
  | @note journal earlier later notice next =>
      have warns : (Slot.running (.note notice next)).Warns := ledger.warns _ (by simp)
      refine ledger.replace (by simp) warns ledger.nodup ?_ ?_
      · intro name
        simp only [Slot.owed, Task.owed, List.count_append, warnings_record, warned_record]
        omega
      · exact fun name => Iff.rfl
  | finish =>
      refine ledger.replace (by simp) trivial ledger.nodup ?_ ?_
      · exact fun name => rfl
      · exact fun name => Iff.rfl
  | cancel failed => exact ledger.cancel

theorem ledger_of_run (run : ReflTransGen (Step workers) pool next)
    (few : names.toFinset.card ≤ warnedLimit) (ledger : pool.Ledger base names) :
    next.Ledger base names := by
  induction run with
  | refl => exact ledger
  | tail run step ih => exact step.ledger few ih

/-- Nothing is warned about twice, nor anything that does not occur. -/
theorem Ledger.warnings_subperm (ledger : pool.Ledger base names) :
    pool.journal.warnings.Subperm (base ++ names.dedup) := by
  rw [List.subperm_ext_iff]
  intro name mem
  rw [List.count_append, List.count_dedup]
  have balance := ledger.balance name
  by_cases remembered : name ∈ pool.journal.warned
  · rw [if_pos (ledger.known name (.inl remembered))]
    rw [List.count_eq_one_of_mem ledger.nodup remembered] at balance
    omega
  · rw [List.count_eq_zero_of_not_mem remembered] at balance
    omega

/-- Once every task is done and none was called off, each name that occurs was warned about once. -/
theorem Ledger.warnings_perm (ledger : pool.Ledger base names) (idle : pool.isIdle = true)
    (none : .cancelled ∉ pool.slots) : pool.journal.warnings.Perm (base ++ names.dedup) := by
  have settled := List.all_eq_true.mp idle
  have asksNothing : pool.slots.flatMap Slot.asked = [] :=
    List.flatMap_eq_nil_iff.mpr fun slot mem => Slot.asked_eq_nil (settled slot mem)
  have owesNothing : pool.slots.flatMap Slot.owed = [] :=
    List.flatMap_eq_nil_iff.mpr fun slot mem => Slot.owed_eq_nil (settled slot mem)
  rw [List.perm_iff_count]
  intro name
  rw [List.count_append, List.count_dedup]
  have balance := ledger.balance name
  have known := ledger.known name
  have complete := ledger.complete none name
  rw [owesNothing, List.count_nil, Nat.add_zero] at balance
  rw [asksNothing] at known complete
  by_cases occurs : name ∈ names
  · have remembered : name ∈ pool.journal.warned := by simpa using complete occurs
    rw [balance, if_pos occurs, List.count_eq_one_of_mem ledger.nodup remembered]
  · have forgotten : name ∉ pool.journal.warned := fun mem => occurs (known (.inl mem))
    rw [balance, if_neg occurs, List.count_eq_zero_of_not_mem forgotten]

end Pool

namespace Behaviour

/-- The pool that evaluates submissions. -/
def pool (behaviour : Behaviour) (routes : Routes) (submissions : List Submission)
    (journal : Journal) : Pool EvaluationResult :=
  Pool.start journal (submissions.map (behaviour.submissionTask routes))

/-- What the evaluation of submissions by so many workers may come to, with the journal that it
leaves. Only several workers share several submissions. -/
inductive EvaluatesTo (behaviour : Behaviour) (routes : Routes) (workers : ℤ)
    (submissions : List Submission) (journal : Journal) :
    Except Fault (List EvaluationResult) → Journal → Prop
  | inTurn (single : ¬(1 < workers ∧ 1 < submissions.length)) :
      EvaluatesTo behaviour routes workers submissions journal
        ((behaviour.evaluateInTurn routes submissions).runOn journal).1
        ((behaviour.evaluateInTurn routes submissions).runOn journal).2
  | together {pool : Pool EvaluationResult} {outcome : Except Fault (List EvaluationResult)}
      (several : 1 < workers ∧ 1 < submissions.length)
      (run : ReflTransGen (Pool.Step workers) (behaviour.pool routes submissions journal) pool)
      (idle : pool.isIdle = true) (collected : Pool.collect pool.slots = some outcome) :
      EvaluatesTo behaviour routes workers submissions journal outcome pool.journal

/-- The names of the languages without a family among submissions. -/
def unroutedNames (routes : Routes) (submissions : List Submission) : List String :=
  AnalysisCall.unroutedNames (submissions.map (·.call routes))

variable {behaviour : Behaviour} {routes : Routes} {submissions : List Submission}
  {journal later : Journal} {workers : ℤ} {outcome : Except Fault (List EvaluationResult)}

theorem pool_holds :
    (behaviour.pool routes submissions journal).Holds
      (submissions.map (behaviour.resultFor routes)) := by
  apply Pool.holds_start
  rw [List.forall₂_map_left_iff, List.forall₂_map_right_iff, List.forall₂_same]
  exact fun submission _ => behaviour.settles_submissionTask routes submission

/-- Before a worker begins, all the names that occur have still to be asked about. -/
theorem pool_ledger (empty : journal.warned = []) :
    (behaviour.pool routes submissions journal).Ledger journal.warnings
      (unroutedNames routes submissions) := by
  have warnsAbout := behaviour.submissionTask_warnsAbout routes
  have asked : (behaviour.pool routes submissions journal).slots.flatMap Slot.asked =
      unroutedNames routes submissions := by
    rw [pool, Pool.start, List.map_map, List.flatMap_map, unroutedNames, AnalysisCall.unroutedNames,
      List.filterMap_map, List.filterMap_eq_flatMap_toList]
    exact congrArg (List.flatMap · submissions)
      (funext fun submission => (warnsAbout submission).asked)
  have owesNothing : (behaviour.pool routes submissions journal).slots.flatMap Slot.owed = [] := by
    rw [pool, Pool.start, List.map_map, List.flatMap_eq_nil_iff]
    intro slot mem
    rcases List.mem_map.mp mem with ⟨submission, _, rfl⟩
    rfl
  have remembersNothing : (behaviour.pool routes submissions journal).journal.warned = [] := empty
  constructor
  case warns =>
    intro slot mem
    rw [pool, Pool.start, List.map_map] at mem
    rcases List.mem_map.mp mem with ⟨submission, _, rfl⟩
    exact ⟨(warnsAbout submission).warns, (warnsAbout submission).owed⟩
  case nodup => simp [remembersNothing]
  case balance =>
    intro name
    rw [owesNothing, remembersNothing]
    rfl
  case known => simp [remembersNothing, asked]
  case complete => simp [remembersNothing, asked]

/-- To handle one task after the other is one of the runs. -/
theorem exists_run_evaluateInTurn (behaviour : Behaviour) (routes : Routes)
    (submissions : List Submission) (journal : Journal) (positive : 0 < workers) :
    ∃ slots : List (Slot EvaluationResult),
      ReflTransGen (Pool.Step workers) (behaviour.pool routes submissions journal)
        ⟨((behaviour.evaluateInTurn routes submissions).runOn journal).2, slots⟩ ∧
      slots.all Slot.isSettled = true ∧
      Pool.collect slots =
        some ((behaviour.evaluateInTurn routes submissions).runOn journal).1 := by
  have alone : (submissions.map (behaviour.submissionTask routes)).mapM Task.alone =
      behaviour.evaluateInTurn routes submissions := by
    rw [List.mapM_map, evaluateInTurn]
    congr 1
    funext submission
    exact behaviour.alone_submissionTask routes submission
  rcases Pool.exists_run_inTurn positive (submissions.map (behaviour.submissionTask routes))
    [] journal with ⟨slots, run, settled, collected⟩
  rw [alone] at run collected
  refine ⟨slots, run, settled, ?_⟩
  rw [collected]
  cases ((behaviour.evaluateInTurn routes submissions).runOn journal).1 <;> rfl

/-- Whatever an evaluation comes to, some workers come to by a run of the pool. -/
theorem EvaluatesTo.exists_run
    (evaluates : behaviour.EvaluatesTo routes workers submissions journal outcome later) :
    ∃ (crew : ℤ) (pool : Pool EvaluationResult),
      ReflTransGen (Pool.Step crew) (behaviour.pool routes submissions journal) pool ∧
      pool.isIdle = true ∧ Pool.collect pool.slots = some outcome ∧ pool.journal = later := by
  cases evaluates with
  | inTurn single =>
      rcases exists_run_evaluateInTurn behaviour routes submissions journal one_pos with
        ⟨slots, run, settled, collected⟩
      exact ⟨1, _, run, settled, collected, rfl⟩
  | together several run idle collected => exact ⟨workers, _, run, idle, collected, rfl⟩

theorem EvaluatesTo.outcome_eq
    (evaluates : behaviour.EvaluatesTo routes workers submissions journal outcome later) :
    outcome = (submissions.map (behaviour.resultFor routes)).mapM id := by
  rcases evaluates.exists_run with ⟨crew, pool, run, idle, collected, rfl⟩
  exact Pool.collect_eq (Pool.holds_of_run run pool_holds) collected

theorem EvaluatesTo.warnings_subperm
    (evaluates : behaviour.EvaluatesTo routes workers submissions journal outcome later)
    (empty : journal.warned = [])
    (few : (unroutedNames routes submissions).toFinset.card ≤ warnedLimit) :
    later.warnings.Subperm (journal.warnings ++ (unroutedNames routes submissions).dedup) := by
  rcases evaluates.exists_run with ⟨crew, pool, run, idle, collected, rfl⟩
  exact (Pool.ledger_of_run run few (pool_ledger empty)).warnings_subperm

/-- If there are results, no task was called off. -/
theorem EvaluatesTo.warnings_perm {results : List EvaluationResult}
    (evaluates : behaviour.EvaluatesTo routes workers submissions journal (.ok results) later)
    (empty : journal.warned = [])
    (few : (unroutedNames routes submissions).toFinset.card ≤ warnedLimit) :
    later.warnings.Perm (journal.warnings ++ (unroutedNames routes submissions).dedup) := by
  rcases evaluates.exists_run with ⟨crew, pool, run, idle, collected, rfl⟩
  apply (Pool.ledger_of_run run few (pool_ledger empty)).warnings_perm idle
  intro mem
  rcases Pool.failsIfCancelled_of_run run mem with ⟨fault, failed⟩
  rw [collected] at failed
  cases failed

/-- A run of a pool that cannot go on has come to an end with an outcome. -/
theorem evaluatesTo_of_stuck (several : 1 < workers ∧ 1 < submissions.length)
    {pool : Pool EvaluationResult}
    (run : ReflTransGen (Pool.Step workers) (behaviour.pool routes submissions journal) pool)
    (stuck : ∀ next, ¬Pool.Step workers pool next) :
    ∃ outcome, behaviour.EvaluatesTo routes workers submissions journal outcome pool.journal := by
  have idle : pool.isIdle = true := by
    by_contra busy
    rcases Pool.exists_step (lt_trans one_pos several.1) (Bool.eq_false_of_not_eq_true busy) with
      ⟨next, step⟩
    exact stuck next step
  rcases Pool.exists_collect (List.all_eq_true.mp idle) (Pool.failsIfCancelled_of_run run) with
    ⟨outcome, collected⟩
  exact ⟨outcome, .together several run idle collected⟩

/-- Several workers come to an end, with the results that one of them gives and, as long as nothing
has to be forgotten, with the warnings that one of them leaves, each name once. -/
theorem evaluatesTo_together (behaviour : Behaviour) (routes : Routes) (workers : ℤ)
    (submissions : List Submission) (journal : Journal) :
    (1 < workers ∧ 1 < submissions.length → ∀ pool,
      ReflTransGen (Pool.Step workers) (behaviour.pool routes submissions journal) pool →
      (∀ next, ¬Pool.Step workers pool next) →
      ∃ outcome, behaviour.EvaluatesTo routes workers submissions journal outcome pool.journal) ∧
    (∀ run : ℕ → Pool EvaluationResult, ¬∀ time, Pool.Step workers (run time) (run (time + 1))) ∧
    ∀ outcome later alone aloneLater,
      behaviour.EvaluatesTo routes workers submissions journal outcome later →
      behaviour.EvaluatesTo routes 0 submissions journal alone aloneLater →
      outcome = alone ∧
      (journal.warned = [] → (unroutedNames routes submissions).toFinset.card ≤ warnedLimit →
        later.warnings.Subperm (journal.warnings ++ (unroutedNames routes submissions).dedup) ∧
        ∀ results, outcome = .ok results →
          later.warnings.Perm aloneLater.warnings ∧
          later.warnings.Perm (journal.warnings ++ (unroutedNames routes submissions).dedup)) ∧
      ∀ tree evaluator, behaviour = Evaluator.behaviour evaluator tree →
        (evaluateAll tree evaluator routes submissions).runOn journal = (alone, aloneLater) := by
  refine ⟨fun several pool => evaluatesTo_of_stuck several, fun run => Pool.not_forever run, ?_⟩
  intro outcome later alone aloneLater together inTurn
  have same : outcome = alone := together.outcome_eq.trans inTurn.outcome_eq.symm
  refine ⟨same, ?_, ?_⟩
  · intro empty few
    refine ⟨together.warnings_subperm empty few, ?_⟩
    rintro results rfl
    subst same
    have warned := together.warnings_perm empty few
    exact ⟨warned.trans (inTurn.warnings_perm empty few).symm, warned⟩
  · rintro tree evaluator rfl
    rw [← Evaluator.evaluateInTurn_behaviour]
    cases inTurn with
    | inTurn single => rfl
    | together several run idle collected => exact absurd several.1 (by decide)

/-- Two languages that have no family. -/
def twoLanguages : List Submission :=
  [{ code := .text "x", language := .text "cobol" },
    { code := .text "x", language := .text "pascal" }]

/-- The second worker may be the faster one, and then the warnings come in the other order. -/
theorem evaluatesTo_together_twoLanguages :
    ∃ outcome later alone aloneLater,
      (Evaluator.neutral.behaviour ⟨[], []⟩).EvaluatesTo [] 2 twoLanguages {} outcome later ∧
      (Evaluator.neutral.behaviour ⟨[], []⟩).EvaluatesTo [] 0 twoLanguages {} alone aloneLater ∧
      later.warnings = ["pascal", "cobol"] ∧ aloneLater.warnings = ["cobol", "pascal"] ∧
      outcome = alone ∧ later.warnings.Perm aloneLater.warnings ∧
      (evaluateAll ⟨[], []⟩ .neutral [] twoLanguages).runOn {} = (alone, aloneLater) := by
  have followed : (((Evaluator.neutral.behaviour ⟨[], []⟩).pool [] twoLanguages {}).follow? 2
      [0, 1, 1, 1, 0, 0, 0, 1]).any (fun pool => pool.isIdle &&
        (Pool.collect pool.slots).any Except.isOk &&
        pool.journal.warnings == ["pascal", "cobol"]) = true := by
    decide +kernel
  rcases (Option.any_eq_true _ _).mp followed with ⟨pool, reached, checked⟩
  simp only [Bool.and_eq_true, beq_iff_eq] at checked
  rcases checked with ⟨⟨idle, isOk⟩, warnings⟩
  rcases (Option.any_eq_true _ _).mp isOk with ⟨outcome, collected, isOk⟩
  cases outcome with
  | error fault => cases isOk
  | ok results =>
      have together := EvaluatesTo.together (by decide) (Pool.run_of_follow? reached) idle collected
      have inTurn := @EvaluatesTo.inTurn (Evaluator.neutral.behaviour ⟨[], []⟩) [] 0 twoLanguages {}
        (by decide)
      rcases (evaluatesTo_together _ _ 2 _ _).2.2 _ _ _ _ together inTurn with
        ⟨same, warned, program⟩
      refine ⟨_, _, _, _, together, inTurn, warnings, by decide +kernel, same, ?_, program _ _ rfl⟩
      exact ((warned rfl (by decide +kernel)).2 results rfl).1

end Behaviour

end Scorecard
