import Scorecard.Proofs.Parts
import Scorecard.Proofs.Yields

/-!
# Values that can be shown

A value can be shown as a text exactly if no integer in it has too many digits to be written.
-/

namespace Scorecard

/-- Every integer has few enough digits to be written. -/
def Writable (integers : List ℤ) : Prop :=
  ∀ value ∈ integers, value.natAbs < 10 ^ digitLimit

theorem writable_of_small {integers : List ℤ}
    (small : ∀ value ∈ integers, value.natAbs < digitLimit) : Writable integers :=
  fun value mem => (small value mem).trans (Nat.lt_pow_self (by decide))

/-- What becomes of a text that needs some integers to be written: it is there if they all can be
written, else their length is the fault. -/
def WrittenIf {α : Type} (answer : Except Fault α) (integers : List ℤ) : Prop :=
  (∃ text, answer = .ok text) ∨ (answer = .error .integerTooLong ∧ ¬ Writable integers)

theorem integerText_writtenIf (value : ℤ) : WrittenIf (integerText value) [value] := by
  rw [integerText]
  split
  · next long => exact .inr ⟨rfl, by simpa [Writable] using long⟩
  · exact .inl ⟨_, rfl⟩

namespace WrittenIf

variable {α β : Type} {answer : Except Fault α} {integers more : List ℤ}

theorem ok (value : α) : WrittenIf (.ok value) integers :=
  .inl ⟨value, rfl⟩

theorem append_right (written : WrittenIf answer integers) :
    WrittenIf answer (integers ++ more) := by
  rcases written with returned | ⟨failed, long⟩
  · exact .inl returned
  · exact .inr ⟨failed, fun writable => long fun value mem => writable value (by simp [mem])⟩

theorem append_left (written : WrittenIf answer more) : WrittenIf answer (integers ++ more) := by
  rcases written with returned | ⟨failed, long⟩
  · exact .inl returned
  · exact .inr ⟨failed, fun writable => long fun value mem => writable value (by simp [mem])⟩

theorem bind {next : α → Except Fault β} (written : WrittenIf answer integers)
    (rest : ∀ value, answer = .ok value → WrittenIf (next value) integers) :
    WrittenIf (answer >>= next) integers := by
  rcases written with ⟨value, rfl⟩ | ⟨rfl, long⟩
  · exact rest value rfl
  · exact .inr ⟨rfl, long⟩

end WrittenIf

/-- The faults of integers that are to be written. -/
def longFaults (integers : List ℤ) : List Fault :=
  integers.flatMap fun value => if value.natAbs < 10 ^ digitLimit then [] else [.integerTooLong]

theorem longFaults_append (integers more : List ℤ) :
    longFaults (integers ++ more) = longFaults integers ++ longFaults more :=
  List.flatMap_append

theorem mem_longFaults_iff {integers : List ℤ} {fault : Fault} :
    fault ∈ longFaults integers ↔ fault = .integerTooLong ∧ ¬Writable integers := by
  simp only [longFaults, List.mem_flatMap, Writable, not_forall]
  constructor
  · rintro ⟨value, mem, faulty⟩
    split at faulty
    · cases faulty
    · next long => exact ⟨List.mem_singleton.mp faulty, value, mem, long⟩
  · rintro ⟨rfl, value, mem, long⟩
    exact ⟨value, mem, by rw [if_neg long]; exact List.mem_singleton_self _⟩

theorem longFaults_eq_nil_iff {integers : List ℤ} :
    longFaults integers = [] ↔ Writable integers := by
  rw [List.eq_nil_iff_forall_not_mem]
  simp only [mem_longFaults_iff, not_and, not_not]
  constructor
  · exact fun none => none .integerTooLong rfl
  · exact fun writable _ _ => writable

theorem Yields.writtenIf {α : Type} {answer : Except Fault α} {value : α} {integers : List ℤ}
    (yields : Yields answer value (longFaults integers)) : WrittenIf answer integers := by
  cases found : longFaults integers with
  | nil =>
      rw [found] at yields
      exact .inl ⟨value, yields⟩
  | cons fault rest =>
      have long := mem_longFaults_iff.mp (found ▸ List.mem_cons_self : fault ∈ longFaults integers)
      rw [found] at yields
      exact .inr ⟨long.1 ▸ yields, long.2⟩

theorem integerText_yields (value : ℤ) :
    Yields (integerText value) (toString value) (longFaults [value]) := by
  rw [integerText, longFaults, List.flatMap_singleton]
  by_cases short : value.natAbs < 10 ^ digitLimit
  · rw [if_neg (Nat.not_le.mpr short), if_pos short]
    exact .ok _
  · rw [if_pos (Nat.le_of_not_lt short), if_neg short]
    exact Eq.refl (Except.error Fault.integerTooLong)

theorem Scalar.exists_literal_yields (scalar : Scalar) :
    ∃ text, Yields scalar.literal text (longFaults scalar.integers) := by
  cases scalar with
  | int value => exact ⟨_, integerText_yields value⟩
  | null => exact ⟨_, .ok _⟩
  | bool value => exact ⟨_, .ok _⟩
  | float value => exact ⟨_, .ok _⟩
  | text value => exact ⟨_, .ok _⟩
  | octets value => exact ⟨_, .ok _⟩
  | day value => exact ⟨_, .ok _⟩
  | moment value => exact ⟨_, .ok _⟩

theorem Scalar.exists_display_yields (scalar : Scalar) :
    ∃ text, Yields scalar.display text (longFaults scalar.integers) := by
  have written := scalar.exists_literal_yields
  cases scalar with
  | text value => exact ⟨_, .ok _⟩
  | day value => exact ⟨_, .ok _⟩
  | moment value => exact ⟨_, .ok _⟩
  | null => exact written
  | bool value => exact written
  | int value => exact written
  | float value => exact written
  | octets value => exact written

namespace Data

mutual

theorem exists_literal_yields : (data : Data) →
    ∃ text, Yields data.literal text (longFaults (data.collect Scalar.integers))
  | .scalar value => by
      rw [literal, collect]
      exact value.exists_literal_yields
  | .list items => by
      rw [literal, collect]
      rcases exists_itemLiterals_yields items with ⟨texts, written⟩
      exact ⟨_, written.map _⟩
  | .mapping entries => by
      rw [literal, collect]
      rcases exists_entryLiterals_yields entries with ⟨texts, written⟩
      exact ⟨_, written.map _⟩

theorem exists_itemLiterals_yields : (items : List Data) →
    ∃ texts, Yields (itemLiterals items) texts (longFaults (collectItems Scalar.integers items))
  | [] => ⟨[], .ok []⟩
  | item :: rest => by
      rw [itemLiterals, collectItems, longFaults_append]
      rcases exists_literal_yields item with ⟨text, first⟩
      rcases exists_itemLiterals_yields rest with ⟨texts, others⟩
      exact ⟨_, first.bind (others.map _)⟩

theorem exists_entryLiterals_yields : (entries : List (Scalar × Data)) →
    ∃ texts,
    Yields (entryLiterals entries) texts (longFaults (collectEntries Scalar.integers entries))
  | [] => ⟨[], .ok []⟩
  | (key, value) :: rest => by
      rw [entryLiterals, collectEntries, longFaults_append, longFaults_append, List.append_assoc]
      rcases key.exists_literal_yields with ⟨keyText, named⟩
      rcases exists_literal_yields value with ⟨text, first⟩
      rcases exists_entryLiterals_yields rest with ⟨texts, others⟩
      exact ⟨_, named.bind (first.bind (others.map _))⟩

end

theorem exists_display_yields (data : Data) :
    ∃ text, Yields data.display text (longFaults data.integers) := by
  cases data with
  | scalar value => exact value.exists_display_yields
  | list items => exact exists_literal_yields _
  | mapping entries => exact exists_literal_yields _

theorem display_writtenIf (data : Data) : WrittenIf data.display data.integers := by
  rcases data.exists_display_yields with ⟨text, yields⟩
  exact yields.writtenIf

end Data

end Scorecard
