import Mathlib
import Scorecard.Fault

/-!
# First faults

A computation in steps that meets faults ends with the first of them, and without any it gives its
value. What a step would give and which faults it meets is known apart from the steps before it, so
the value and the faults of the whole are put together from those of the steps.
-/

namespace Scorecard

variable {α β : Type}

/-- The computation ends with the first of the faults, or with the value if there are none. -/
def Yields (answer : Except Fault α) (value : α) (faults : List Fault) : Prop :=
  answer = match faults with
    | [] => .ok value
    | fault :: _ => .error fault

namespace Yields

variable {answer : Except Fault α} {value : α} {faults : List Fault}

theorem ok (value : α) : Yields (.ok value) value [] := rfl

theorem returned_iff (yields : Yields answer value faults) : answer = .ok value ↔ faults = [] := by
  cases yields
  cases faults <;> simp

/-- The only value that can be returned. -/
theorem of_returned {other : α} (yields : Yields answer value faults)
    (returned : answer = .ok other) : faults = [] ∧ other = value := by
  cases yields
  cases faults with
  | nil =>
      cases returned
      exact ⟨rfl, rfl⟩
  | cons fault faults => cases returned

/-- Only the first of the faults can be met. -/
theorem mem_of_failed {fault : Fault} (yields : Yields answer value faults)
    (failed : answer = .error fault) : fault ∈ faults := by
  cases yields
  cases faults with
  | nil => cases failed
  | cons first faults =>
      cases failed
      exact List.mem_cons_self

/-- What is only known of the rest if nothing went wrong before it. -/
theorem bind_of_silent {next : α → Except Fault β} {result : β} {more : List Fault}
    (yields : Yields answer value faults) (rest : faults = [] → Yields (next value) result more) :
    Yields (answer >>= next) result (faults ++ more) := by
  cases yields
  cases faults with
  | nil => exact rest rfl
  | cons fault faults => rfl

theorem bind {next : α → Except Fault β} {result : β} {more : List Fault}
    (yields : Yields answer value faults) (rest : Yields (next value) result more) :
    Yields (answer >>= next) result (faults ++ more) :=
  yields.bind_of_silent fun _ => rest

/-- The last step that meets faults. -/
theorem last {next : α → Except Fault β} {result : β} (yields : Yields answer value faults)
    (rest : Yields (next value) result []) : Yields (answer >>= next) result faults := by
  have whole := yields.bind rest
  rw [List.append_nil] at whole
  exact whole

theorem map (yields : Yields answer value faults) (place : α → β) :
    Yields (answer >>= fun value => pure (place value)) (place value) faults :=
  yields.last (.ok (place value))

theorem mapM {item : α → Except Fault β} {result : α → β} {each : α → List Fault} {values : List α}
    (yields : ∀ value ∈ values, Yields (item value) (result value) (each value)) :
    Yields (values.mapM item) (values.map result) (values.flatMap each) := by
  induction values with
  | nil => exact .ok []
  | cons value values ih =>
      rw [List.forall_mem_cons] at yields
      rw [List.mapM_cons, List.flatMap_cons]
      exact yields.1.bind ((ih yields.2).map _)

end Yields

end Scorecard
