import Mathlib
import Scorecard.CommandLine.Session

/-!
# Running computations on sessions

A computation in steps runs the first of them and then the others on the session that it leaves
behind. A fault ends it there.
-/

namespace Scorecard

namespace Session

/-- The session with one more notice. -/
def noted (session : Session) (notice : Notice) : Session :=
  { session with journal := session.journal.record notice }

/-- The session with one more line of output. -/
def printed (session : Session) (text : String) : Session :=
  { session with output := session.output ++ text ++ "\n" }

end Session

namespace Action

variable {α β : Type} (session : Session)

theorem runOn_bind (first : Action α) (next : α → Action β) :
    (first >>= next).runOn session = match first.runOn session with
      | (.ok value, later) => (next value).runOn later
      | (.error fault, later) => (.error fault, later) := by
  rw [runOn, ExceptT.run_bind, StateT.run_bind]
  rcases reached : first.runOn session with ⟨answer, later⟩
  rw [runOn] at reached
  rw [reached]
  cases answer <;> rfl

/-- A computation in steps succeeds exactly if every step does. -/
theorem runOn_bind_eq_ok_iff {first : Action α} {next : α → Action β} {result : β}
    {session last : Session} :
    (first >>= next).runOn session = (.ok result, last) ↔
      ∃ value later, first.runOn session = (.ok value, later) ∧
        (next value).runOn later = (.ok result, last) := by
  rw [runOn_bind]
  rcases first.runOn session with ⟨_ | value, later⟩
  · simp
  · simp

@[simp]
theorem runOn_pure (value : α) : (pure value : Action α).runOn session = (.ok value, session) := rfl

@[simp]
theorem runOn_throw (fault : Fault) :
    (throw fault : Action α).runOn session = (.error fault, session) := rfl

@[simp]
theorem runOn_tree : tree.runOn session = (.ok session.tree, session) := rfl

@[simp]
theorem runOn_ofExcept (answer : Except Fault α) :
    (ofExcept answer).runOn session = (answer, session) := by
  cases answer <;> rfl

@[simp]
theorem runOn_ofRecorded (computation : Recorded α) : (ofRecorded computation).runOn session =
    ((computation.runOn session.journal).1,
      { session with journal := (computation.runOn session.journal).2 }) := by
  have ran : (ofRecorded computation).runOn session =
      (ofExcept (computation.runOn session.journal).1).runOn
        { session with journal := (computation.runOn session.journal).2 } := rfl
  rw [ran, runOn_ofExcept]

@[simp]
theorem runOn_note (notice : Notice) :
    (note notice).runOn session = (.ok (), session.noted notice) := rfl

end Action

end Scorecard
