import Mathlib
import Scorecard.Journal
import Scorecard.Proofs.Yields

/-!
# Answers of recorded computations

Some computations read nothing from their journal that shows in what they answer: they have one
answer, whatever was recorded before. Such a computation is known by its answer, and answers compose
like the computations they belong to. If it only adds notices to the journal, it is known by its
value, the faults it meets and the notices it leaves behind, and these compose too.
-/

namespace Scorecard

namespace Recorded

variable {α β : Type}

theorem runOn_bind (first : Recorded α) (next : α → Recorded β)
    (journal : Journal) :
    (first >>= next).runOn journal = match first.runOn journal with
      | (.ok value, later) => (next value).runOn later
      | (.error fault, later) => (.error fault, later) := by
  rw [runOn, ExceptT.run_bind, StateT.run_bind]
  rcases reached : first.runOn journal with ⟨answer, later⟩
  rw [runOn] at reached
  rw [reached]
  cases answer with
  | ok value => rfl
  | error fault => rfl

/-- On every journal the computation has the given answer. -/
def Answers (computation : Recorded α) (answer : Except Fault α) : Prop :=
  ∀ journal, (computation.runOn journal).1 = answer

theorem answers_pure (value : α) : Answers (pure value) (.ok value) :=
  fun _ => rfl

theorem answers_throw (fault : Fault) : Answers (throw fault : Recorded α) (.error fault) :=
  fun _ => rfl

theorem answers_modify (change : Journal → Journal) : Answers (modify change) (.ok ()) :=
  fun _ => rfl

theorem answers_note (notice : Notice) : Answers (note notice) (.ok ()) :=
  answers_modify _

theorem answers_ofExcept (answer : Except Fault α) : Answers (ofExcept answer) answer := by
  cases answer with
  | ok value => exact answers_pure value
  | error fault => exact answers_throw fault

theorem Answers.bind {computation : Recorded α} {next : α → Recorded β} {answer : Except Fault α}
    {nextAnswer : α → Except Fault β} (first : Answers computation answer)
    (rest : ∀ value, answer = .ok value → Answers (next value) (nextAnswer value)) :
    Answers (computation >>= next) (answer >>= nextAnswer) := by
  intro journal
  have answered := first journal
  rw [runOn] at answered ⊢
  rw [ExceptT.run_bind, StateT.run_bind]
  rcases ran : StateT.run (ExceptT.run computation) journal with ⟨reached, later⟩
  rw [ran] at answered
  subst answered
  cases reached with
  | ok value => exact rest value rfl later
  | error fault => rfl

theorem Answers.bind_ok {computation : Recorded α} {next : α → Recorded β} {value : α}
    {answer : Except Fault β} (first : Answers computation (.ok value))
    (rest : Answers (next value) answer) : Answers (computation >>= next) answer := by
  change Answers (computation >>= next) (.ok value >>= fun _ => answer)
  refine first.bind fun _ same => ?_
  cases same
  exact rest

/-- A computation for each item answers as the answers for each item together. -/
theorem answers_mapM {item : α → Recorded β} {itemAnswer : α → Except Fault β}
    (each : ∀ value, Answers (item value) (itemAnswer value)) (values : List α) :
    Answers (values.mapM item) (values.mapM itemAnswer) := by
  induction values with
  | nil => exact answers_pure []
  | cons value values ih =>
      rw [List.mapM_cons, List.mapM_cons]
      refine (each value).bind fun _ _ => ih.bind fun _ _ => answers_pure _

/-- On every journal the computation ends with the first of the faults, or with the value. -/
def Gives (computation : Recorded α) (value : α) (faults : List Fault) : Prop :=
  ∀ journal, Yields (computation.runOn journal).1 value faults

namespace Gives

variable {computation : Recorded α} {value : α} {faults more : List Fault}

theorem pure (value : α) : Gives (pure value) value [] :=
  fun _ => rfl

theorem note (notice : Notice) : Gives (note notice) () [] :=
  fun _ => rfl

theorem ofExcept {answer : Except Fault α} (yields : Yields answer value faults) :
    Gives (ofExcept answer) value faults := by
  intro journal
  rw [answers_ofExcept answer journal]
  exact yields

theorem bind {next : α → Recorded β} {result : β} (gives : Gives computation value faults)
    (rest : Gives (next value) result more) :
    Gives (computation >>= next) result (faults ++ more) := by
  intro journal
  have first := gives journal
  rw [runOn_bind]
  rcases reached : computation.runOn journal with ⟨answer, later⟩
  rw [reached] at first
  cases faults with
  | nil =>
      cases first
      exact rest later
  | cons fault faults =>
      cases first
      rfl

end Gives

/-- On every journal the computation returns the value and leaves the notices behind. -/
def Returns (computation : Recorded α) (value : α) (notices : List Notice) : Prop :=
  ∀ journal, computation.runOn journal =
    (.ok value, { journal with notices := journal.notices ++ notices })

namespace Returns

variable {computation : Recorded α} {value : α} {notices more : List Notice}

theorem pure (value : α) : Returns (pure value) value [] := by
  intro journal
  rw [List.append_nil]
  rfl

theorem note (notice : Notice) : Returns (note notice) () [notice] :=
  fun _ => rfl

theorem ofExcept {answer : Except Fault α} (returned : answer = .ok value) :
    Returns (ofExcept answer) value [] := by
  rw [returned]
  exact .pure value

theorem bind {next : α → Recorded β} {result : β} (returns : Returns computation value notices)
    (rest : Returns (next value) result more) :
    Returns (computation >>= next) result (notices ++ more) := by
  intro journal
  rw [runOn_bind, returns journal]
  dsimp only
  rw [rest, List.append_assoc]

end Returns

/-- On every journal the computation ends with the first of the faults, or with the value, and then
it leaves the notices behind. -/
structure Leaves (computation : Recorded α) (value : α) (faults : List Fault)
    (notices : List Notice) : Prop where
  gives : Gives computation value faults
  returns : faults = [] → Returns computation value notices

namespace Leaves

variable {computation : Recorded α} {value : α} {faults : List Fault} {notices : List Notice}

theorem pure (value : α) : Leaves (pure value) value [] [] :=
  ⟨.pure value, fun _ => .pure value⟩

theorem note (notice : Notice) : Leaves (note notice) () [] [notice] :=
  ⟨.note notice, fun _ => .note notice⟩

theorem ofExcept {answer : Except Fault α} (yields : Yields answer value faults) :
    Leaves (ofExcept answer) value faults [] :=
  ⟨.ofExcept yields, fun silent => .ofExcept (yields.returned_iff.mpr silent)⟩

theorem bind {next : α → Recorded β} {result : β} {more : List Fault} {later : List Notice}
    (leaves : Leaves computation value faults notices)
    (rest : Leaves (next value) result more later) :
    Leaves (computation >>= next) result (faults ++ more) (notices ++ later) := by
  refine ⟨leaves.gives.bind rest.gives, ?_⟩
  intro silent
  rw [List.append_eq_nil_iff] at silent
  exact (leaves.returns silent.1).bind (rest.returns silent.2)

/-- The last step that meets faults or leaves notices. -/
theorem map (leaves : Leaves computation value faults notices) (place : α → β) :
    Leaves (computation >>= fun value => Pure.pure (place value)) (place value) faults notices := by
  rw [← List.append_nil faults, ← List.append_nil notices]
  exact leaves.bind (.pure (place value))

theorem foldlM {step : β → α → Recorded β} {result : β → α → β} {each : α → List Fault}
    {noted : α → List Notice} {values : List α}
    (leaves : ∀ state, ∀ value ∈ values,
      Leaves (step state value) (result state value) (each value) (noted value)) (state : β) :
    Leaves (values.foldlM step state) (values.foldl result state) (values.flatMap each)
      (values.flatMap noted) := by
  induction values generalizing state with
  | nil => exact .pure state
  | cons value values ih =>
      rw [List.foldlM_cons, List.foldl_cons, List.flatMap_cons, List.flatMap_cons]
      apply (leaves state value List.mem_cons_self).bind
      exact ih (fun state other mem => leaves state other (List.mem_cons_of_mem _ mem)) _

end Leaves

end Recorded

end Scorecard
