import Scorecard.Proofs.Display
import Scorecard.Proofs.Json.Shape
import Scorecard.Proofs.Number.Digits

/-!
# Digits of the integers of a text

A numeral with too many digits is refused, so the integers of what a text denotes can all be written
again, and everything in it can be shown.
-/

namespace Scorecard

namespace Data

variable {items : List Data} {entries : Entries}

theorem writable_list_iff :
    Writable (Data.list items).integers ↔ ∀ item ∈ items, Writable item.integers := by
  simp only [Writable, integers, collect, mem_collectItems]
  constructor
  · intro writable item mem value valueMem
    exact writable value ⟨item, mem, valueMem⟩
  · rintro each value ⟨item, mem, valueMem⟩
    exact each item mem value valueMem

theorem writable_mapping_iff :
    Writable (Data.mapping entries).integers ↔
      ∀ entry ∈ entries, Writable entry.1.integers ∧ Writable entry.2.integers := by
  simp only [Writable, integers, collect, mem_collectEntries]
  constructor
  · intro writable entry mem
    constructor
    · intro value valueMem
      exact writable value ⟨entry, mem, .inl valueMem⟩
    · intro value valueMem
      exact writable value ⟨entry, mem, .inr valueMem⟩
  · rintro each value ⟨entry, mem, valueMem | valueMem⟩
    · exact (each entry mem).1 value valueMem
    · exact (each entry mem).2 value valueMem

theorem writable_nil : Writable [] := by
  simp [Writable]

end Data

namespace Entries

variable {entries : Entries}

theorem writable_of_get? (writable : Writable (Data.mapping entries).integers) {key : String}
    {value : Data} (found : entries.get? key = some value) : Writable value.integers := by
  rcases mem_of_get? found with ⟨entry, mem, rfl⟩
  exact (Data.writable_mapping_iff.mp writable entry mem).2

end Entries

namespace Json

theorem isDigit_of_mem_wholePart {text : List Char} : ∀ c ∈ wholePart text, c.isDigit = true := by
  intro c mem
  rw [wholePart.eq_def] at mem
  split at mem
  · rw [List.mem_singleton.mp mem]
    rfl
  · exact List.mem_takeWhile_imp mem

theorem unsignedNumber_writable {negative : Bool} {start text after : List Char} {data : Data}
    (read : unsignedNumber negative start text = .ok (data, after)) : Writable data.integers := by
  simp only [unsignedNumber, refuse] at read
  split at read
  · cases read
  split at read
  · split at read
    · cases read
    · next short =>
        cases read
        have bound := Numeral.valueOf_lt (@isDigit_of_mem_wholePart text)
        have enough : 10 ^ (wholePart text).length ≤ 10 ^ digitLimit :=
          Nat.pow_le_pow_right (by decide) (Nat.le_of_not_lt short)
        have writable : (if negative then -(Numeral.valueOf (wholePart text) : ℤ)
            else Numeral.valueOf (wholePart text)).natAbs < 10 ^ digitLimit := by
          split <;> simpa using bound.trans_le enough
        simpa [Writable, Data.integers, Data.collect, Scalar.integers] using writable
  · cases read
    simp [Writable, Data.integers, Data.collect, Scalar.integers]

theorem plainValue_writable {text after : List Char} {data : Data}
    (read : plainValue text = .ok (data, after)) : Writable data.integers := by
  rcases plainValue_cases read with (rfl | ⟨_, rfl⟩ | ⟨_, rfl⟩) | ⟨_, _, _, number⟩
  · exact Data.writable_nil
  · exact Data.writable_nil
  · exact Data.writable_nil
  · exact unsignedNumber_writable number

theorem built_writable : Built fun data => Writable data.integers where
  plain := plainValue_writable
  text := fun _ => Data.writable_nil
  list := Data.writable_list_iff.mpr
  mapping := by
    intro pairs each
    rcases Entries.ofPairs_named fun pair mem => (each pair mem).1 with ⟨named, values⟩
    rw [Data.writable_mapping_iff]
    intro entry mem
    rcases named.texts entry.1 (List.mem_map_of_mem mem) with ⟨name, key⟩
    rcases values entry mem with ⟨pair, pairMem, same⟩
    rw [key, same]
    exact ⟨Data.writable_nil, (each pair pairMem).2⟩

/-- The integers of what a text denotes can be written. -/
theorem writable_of_decode {text : String} {data : Data} (read : decode text = .ok data) :
    Writable data.integers :=
  built_writable.of_decode read

end Json

end Scorecard
