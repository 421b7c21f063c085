import Mathlib
import Scorecard.Fault

/-!
# Computations that return

A computation in steps returns if each of its steps does, and a list of computations returns the
list of what each of them returns.
-/

namespace Scorecard

variable {ε α β : Type}

theorem ok_bind (value : α) (next : α → Except ε β) : (Except.ok value >>= next) = next value := rfl

theorem bind_eq_ok_iff {computation : Except ε α} {next : α → Except ε β} {result : β} :
    computation >>= next = .ok result ↔
      ∃ value, computation = .ok value ∧ next value = .ok result := by
  cases computation with
  | ok value =>
      constructor
      · intro returned
        exact ⟨value, rfl, returned⟩
      · rintro ⟨_, same, returned⟩
        cases same
        exact returned
  | error fault =>
      constructor
      · intro returned
        cases returned
      · rintro ⟨_, impossible, _⟩
        cases impossible

/-- Whether a computation returns a value of some kind is decided by running it. -/
instance decidableExistsOk {holds : α → Prop} [DecidablePred holds] (computation : Except ε α) :
    Decidable (∃ value, computation = .ok value ∧ holds value) :=
  match computation with
  | .ok value => decidable_of_iff (holds value) (by simp)
  | .error _ => .isFalse (by simp)

theorem mapM_eq_ok_iff {item : α → Except ε β} {values : List α} {results : List β} :
    values.mapM item = .ok results ↔
      List.Forall₂ (fun value result => item value = .ok result) values results := by
  induction values generalizing results with
  | nil =>
      constructor
      · intro returned
        cases returned
        exact .nil
      · intro each
        cases each
        rfl
  | cons value values ih =>
      rw [List.mapM_cons]
      simp only [bind_eq_ok_iff, ih]
      constructor
      · rintro ⟨result, first, results, rest, returned⟩
        cases returned
        exact .cons first rest
      · intro each
        cases each with
        | cons first rest => exact ⟨_, first, _, rest, rfl⟩

/-- What is in the list that a list of computations returns is what one of them returns. -/
theorem mem_iff_of_mapM {item : α → Except ε β} {values : List α} {results : List β} {result : β}
    (returned : values.mapM item = .ok results) :
    result ∈ results ↔ ∃ value ∈ values, item value = .ok result := by
  rw [mapM_eq_ok_iff] at returned
  induction returned with
  | nil => simp
  | cons first _ ih =>
      rw [List.mem_cons, List.exists_mem_cons_iff, ih, first, Except.ok.injEq]
      exact or_congr_left eq_comm

/-- A list of computations that all return returns. -/
theorem exists_mapM_eq_ok {item : α → Except ε β} {values : List α}
    (each : ∀ value ∈ values, ∃ result, item value = .ok result) :
    ∃ results, values.mapM item = .ok results := by
  simp only [mapM_eq_ok_iff]
  induction values with
  | nil => exact ⟨[], .nil⟩
  | cons value values ih =>
      rw [List.forall_mem_cons] at each
      rcases each.1 with ⟨result, first⟩
      rcases ih each.2 with ⟨results, rest⟩
      exact ⟨result :: results, .cons first rest⟩

/-- What each item keeps of a value, the list of items keeps of the list of values. -/
theorem map_eq_of_mapM {γ : Type} {item : α → Except ε β} {before : α → γ} {after : β → γ}
    {values : List α} {results : List β} (returned : values.mapM item = .ok results)
    (keeps : ∀ value ∈ values, ∀ result, item value = .ok result → before value = after result) :
    values.map before = results.map after := by
  have each := (List.forall₂_and_left _ _).mpr ⟨keeps, mapM_eq_ok_iff.mp returned⟩
  rw [← List.forall₂_eq_eq_eq, List.forall₂_map_left_iff, List.forall₂_map_right_iff]
  exact each.imp fun value result ⟨keeps, returned⟩ => keeps result returned

/-- What follows from being related to anything holds of all that is related. -/
theorem forall_of_forall₂ {relation : α → β → Prop} {property : β → Prop} {values : List α}
    {results : List β} (each : List.Forall₂ relation values results)
    (follows : ∀ value result, relation value result → property result) :
    ∀ result ∈ results, property result := by
  induction each with
  | nil => simp
  | cons first _ ih => exact List.forall_mem_cons.mpr ⟨follows _ _ first, ih⟩

/-- If a list of computations returns, so does each of them. -/
theorem exists_of_mapM {item : α → Except ε β} {values : List α} {results : List β} {value : α}
    (returned : values.mapM item = .ok results) (mem : value ∈ values) :
    ∃ result, item value = .ok result := by
  have origin : ∀ result value, item value = .ok result → ∃ result, item value = .ok result :=
    fun result _ same => ⟨result, same⟩
  exact forall_of_forall₂ (mapM_eq_ok_iff.mp returned).flip origin value mem

/-- If items fail with one fault only, and for a reason, so does the list of them. -/
theorem mapM_ok_or_error {item : α → Except Fault β} {fault : Fault} {reason : α → Prop}
    (each : ∀ value, (∃ result, item value = .ok result) ∨
      (item value = .error fault ∧ reason value))
    (values : List α) :
    (∃ results, values.mapM item = .ok results) ∨
      (values.mapM item = .error fault ∧ ∃ value ∈ values, reason value) := by
  induction values with
  | nil => exact .inl ⟨[], rfl⟩
  | cons value values ih =>
      rw [List.mapM_cons]
      rcases each value with ⟨result, returned⟩ | ⟨failed, why⟩
      · rw [returned]
        rcases ih with ⟨results, rest⟩ | ⟨failed, other, mem, why⟩
        · exact .inl ⟨result :: results, by rw [rest]; rfl⟩
        · exact .inr ⟨by rw [failed]; rfl, other, List.mem_cons_of_mem _ mem, why⟩
      · exact .inr ⟨by rw [failed]; rfl, value, List.mem_cons_self, why⟩

end Scorecard
