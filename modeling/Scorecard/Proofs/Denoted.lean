import Scorecard.Proofs.Display
import Scorecard.Proofs.Entries
import Scorecard.Proofs.Number.Range
import Scorecard.Proofs.Yields

/-!
# What values denote

Any value denotes an integer or none, a float or none, and a text. The faults on the way are few: an
infinity has no integer part, an integer may be beyond the floats, and an integer may have too many
digits to be written. No other value is a fault, and what is a fault denotes nothing. A mapping
denotes what the value under a key does, and has its faults.
-/

namespace Scorecard

namespace Data

/-- The integer that a value denotes. -/
def integer? (value : Data) : Option ℤ :=
  match value.toInteger? with
  | .ok denoted => denoted
  | .error _ => none

/-- The faults of a value that is taken as an integer. -/
def integerFaults : Data → List Fault
  | .float (.infinite _) => [.infinityToInteger]
  | _ => []

/-- The float that a value denotes. -/
def float? (value : Data) : Option Binary64 :=
  match value.toFloat? with
  | .ok denoted => denoted
  | .error _ => none

/-- The faults of a value that is taken as a float. -/
def floatFaults : Data → List Fault
  | .int value => if value.natAbs < Binary64.beyond then [] else [.integerBeyondFloat]
  | _ => []

/-- The text of a value; what cannot be written has none. -/
def shown (value : Data) : String :=
  match value.display with
  | .ok written => written
  | .error _ => ""

/-- The faults of a value that is shown as a text. -/
def textFaults (value : Data) : List Fault :=
  longFaults value.integers

theorem toInteger?_yields (value : Data) :
    Yields value.toInteger? value.integer? value.integerFaults := by
  cases value with
  | list items => rfl
  | mapping entries => rfl
  | scalar value =>
      cases value with
      | null => rfl
      | bool value => rfl
      | int value => rfl
      | text value => rfl
      | octets value => rfl
      | day value => rfl
      | moment value => rfl
      | float value => cases value <;> rfl

theorem toFloat?_yields (value : Data) : Yields value.toFloat? value.float? value.floatFaults := by
  cases value with
  | list items => rfl
  | mapping entries => rfl
  | scalar value =>
      cases value with
      | null => rfl
      | bool value => rfl
      | float value => rfl
      | text value => rfl
      | octets value => rfl
      | day value => rfl
      | moment value => rfl
      | int value =>
          simp only [Yields, float?, toFloat?, floatFaults, Number.floatOfInt_eq]
          split <;> rfl

theorem display_yields (value : Data) : Yields value.display value.shown value.textFaults := by
  rcases value.exists_display_yields with ⟨text, yields⟩
  rw [textFaults]
  cases found : longFaults value.integers with
  | cons fault rest =>
      rw [found] at yields
      exact yields
  | nil =>
      rw [found] at yields
      rw [shown, show value.display = .ok text from yields]
      exact .ok text

theorem display_yields_of_writable {value : Data} (writable : Writable value.integers) :
    Yields value.display value.shown [] := by
  have yields := value.display_yields
  rw [textFaults, longFaults_eq_nil_iff.mpr writable] at yields
  exact yields

theorem eq_of_mem_floatFaults {value : Data} {fault : Fault} (mem : fault ∈ value.floatFaults) :
    fault = .integerBeyondFloat := by
  rw [floatFaults.eq_def] at mem
  split at mem
  · split at mem
    · cases mem
    · exact List.mem_singleton.mp mem
  · cases mem

end Data

namespace Data

/-- The value holds what the fault is about: an infinity, an integer beyond the floats, or an
integer that is too long to be written. -/
inductive Explains (data : Data) : Fault → Prop
  | infinity {negative : Bool} (mem : .infinite negative ∈ data.floats) :
      Explains data .infinityToInteger
  | integer {value : ℤ} (mem : value ∈ data.integers) (large : Binary64.beyond ≤ value.natAbs) :
      Explains data .integerBeyondFloat
  | long {value : ℤ} (mem : value ∈ data.integers) (large : 10 ^ digitLimit ≤ value.natAbs) :
      Explains data .integerTooLong

variable {value : Data} {fault : Fault}

theorem explains_of_mem_integerFaults (value : Data) (mem : fault ∈ value.integerFaults) :
    value.Explains fault := by
  rw [integerFaults.eq_def] at mem
  split at mem
  · rw [List.mem_singleton.mp mem]
    exact .infinity (List.mem_singleton_self _)
  · cases mem

theorem explains_of_mem_floatFaults (value : Data) (mem : fault ∈ value.floatFaults) :
    value.Explains fault := by
  rw [floatFaults.eq_def] at mem
  split at mem
  · split at mem
    · cases mem
    · next large =>
        rw [List.mem_singleton.mp mem]
        exact .integer (List.mem_singleton_self _) (Nat.le_of_not_lt large)
  · cases mem

theorem explains_of_mem_textFaults (value : Data) (mem : fault ∈ value.textFaults) :
    value.Explains fault := by
  rcases mem_longFaults_iff.mp mem with ⟨rfl, long⟩
  simp only [Writable, not_forall, Nat.not_lt] at long
  rcases long with ⟨integer, integerMem, large⟩
  exact .long integerMem large

/-- What explains a fault in a part explains it in the whole. -/
theorem Explains.whole {data : Data} (explains : value.Explains fault)
    (floats : ∀ float ∈ value.floats, float ∈ data.floats)
    (integers : ∀ integer ∈ value.integers, integer ∈ data.integers) : data.Explains fault := by
  cases explains with
  | infinity mem => exact .infinity (floats _ mem)
  | integer mem large => exact .integer (integers _ mem) large
  | long mem large => exact .long (integers _ mem) large

theorem Explains.entry {entries : Entries} {entry : Scalar × Data} (mem : entry ∈ entries)
    (explains : entry.2.Explains fault) : (Data.mapping entries).Explains fault := by
  apply explains.whole
  · intro float floatMem
    exact mem_collectEntries.mpr ⟨entry, mem, .inr floatMem⟩
  · intro integer integerMem
    exact mem_collectEntries.mpr ⟨entry, mem, .inr integerMem⟩

theorem Explains.key {entries : Entries} {entry : Scalar × Data} (mem : entry ∈ entries)
    (explains : (Data.scalar entry.1).Explains fault) : (Data.mapping entries).Explains fault := by
  apply explains.whole
  · intro float floatMem
    exact mem_collectEntries.mpr ⟨entry, mem, .inl floatMem⟩
  · intro integer integerMem
    exact mem_collectEntries.mpr ⟨entry, mem, .inl integerMem⟩

theorem Explains.item {items : List Data} (mem : value ∈ items) (explains : value.Explains fault) :
    (Data.list items).Explains fault := by
  apply explains.whole
  · intro float floatMem
    exact mem_collectItems.mpr ⟨value, mem, floatMem⟩
  · intro integer integerMem
    exact mem_collectItems.mpr ⟨value, mem, integerMem⟩

/-- A mapping without entries explains nothing. -/
theorem not_explains_nil : ¬(Data.mapping []).Explains fault := by
  rintro ⟨mem⟩ <;> contradiction

end Data

namespace Entries

/-- What is read from the value under a key. -/
def held? {α : Type} (entries : Entries) (key : String) (read : Data → Option α) : Option α :=
  (entries.get? key).bind read

/-- The faults of the value under a key. -/
def faultsAt (entries : Entries) (key : String) (faults : Data → List Fault) : List Fault :=
  (entries.get? key).elim [] faults

variable {entries : Entries} {fault : Fault} {key : String}

theorem explains_of_get? {value : Data} (found : entries.get? key = some value)
    (explains : value.Explains fault) : (Data.mapping entries).Explains fault := by
  rcases mem_of_get? found with ⟨entry, mem, rfl⟩
  exact .entry mem explains

theorem explains_of_mem_faultsAt {faults : Data → List Fault}
    (explains : ∀ value, fault ∈ faults value → value.Explains fault)
    (mem : fault ∈ entries.faultsAt key faults) : (Data.mapping entries).Explains fault := by
  rw [faultsAt] at mem
  cases found : entries.get? key with
  | none => simp [found] at mem
  | some value =>
      rw [found] at mem
      exact explains_of_get? found (explains value mem)

end Entries

end Scorecard
