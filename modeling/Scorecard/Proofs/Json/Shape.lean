import Scorecard.Json.Reader
import Scorecard.Proofs.Entries
import Scorecard.Proofs.Except

/-!
# Values of the format

A JSON text denotes an absent value, a truth value, a number, a text, a list of such values, or a
mapping of such values under names. The reader gives no others.
-/

namespace Scorecard

/-- Whether a scalar is one of the format. -/
def Scalar.IsJson : Scalar → Prop
  | .null | .bool _ | .int _ | .float _ | .text _ => True
  | .octets _ | .day _ | .moment _ => False

/-- Whether a value is one of the format. -/
inductive Data.IsJson : Data → Prop
  | scalar {value : Scalar} (plain : value.IsJson) : IsJson (.scalar value)
  | list {items : List Data} (each : ∀ item ∈ items, IsJson item) : IsJson (.list items)
  | mapping {entries : Entries} (named : entries.Named) (each : ∀ entry ∈ entries, IsJson entry.2) :
      IsJson (.mapping entries)

namespace Data

@[simp]
theorem isJson_bool (value : Bool) : (Data.bool value).IsJson :=
  .scalar trivial

@[simp]
theorem isJson_int (value : ℤ) : (Data.int value).IsJson :=
  .scalar trivial

@[simp]
theorem isJson_float (value : Binary64) : (Data.float value).IsJson :=
  .scalar trivial

@[simp]
theorem isJson_text (value : String) : (Data.text value).IsJson :=
  .scalar trivial

end Data

namespace Json

theorem unsignedNumber_isJson {negative : Bool} {start text after : List Char} {data : Data}
    (read : unsignedNumber negative start text = .ok (data, after)) : data.IsJson := by
  simp only [unsignedNumber, refuse] at read
  split at read
  · cases read
  split at read
  · split at read
    · cases read
    · cases read
      exact .scalar trivial
  · cases read
    exact .scalar trivial

/-- A value without parts is read from a name or as a number. -/
theorem plainValue_cases {text after : List Char} {data : Data}
    (read : plainValue text = .ok (data, after)) :
    (data = .null ∨ (∃ value, data = .bool value) ∨ ∃ value, data = .float value) ∨
      ∃ negative start number, unsignedNumber negative start number = .ok (data, after) := by
  simp only [plainValue] at read
  split at read
  · next result found =>
      cases read
      rcases List.exists_of_findSome?_eq_some found with ⟨⟨name, value⟩, mem, named⟩
      rcases Option.map_eq_some_iff.mp named with ⟨_, _, same⟩
      cases same
      left
      simp only [List.mem_cons, Prod.mk.injEq, List.not_mem_nil, or_false] at mem
      rcases mem with ⟨_, rfl⟩ | ⟨_, rfl⟩ | ⟨_, rfl⟩ | ⟨_, rfl⟩ | ⟨_, rfl⟩ | ⟨_, rfl⟩
      · exact .inl rfl
      · exact .inr (.inl ⟨_, rfl⟩)
      · exact .inr (.inl ⟨_, rfl⟩)
      · exact .inr (.inr ⟨_, rfl⟩)
      · exact .inr (.inr ⟨_, rfl⟩)
      · exact .inr (.inr ⟨_, rfl⟩)
  · split at read
    · exact .inr ⟨_, _, _, read⟩
    · exact .inr ⟨_, _, _, read⟩

theorem plainValue_isJson {text after : List Char} {data : Data}
    (read : plainValue text = .ok (data, after)) : data.IsJson := by
  rcases plainValue_cases read with (rfl | ⟨_, rfl⟩ | ⟨_, rfl⟩) | ⟨_, _, _, number⟩
  · exact .scalar trivial
  · exact .scalar trivial
  · exact .scalar trivial
  · exact unsignedNumber_isJson number

/-- The property holds of all that the reader builds: of what has no parts, and of a whole if of its
parts. -/
structure Built (property : Data → Prop) : Prop where
  plain : ∀ {text after data}, plainValue text = .ok (data, after) → property data
  text : ∀ content, property (.text content)
  list : ∀ {items}, (∀ item ∈ items, property item) → property (.list items)
  mapping : ∀ {pairs : List (Scalar × Data)},
    (∀ pair ∈ pairs, (∃ name, pair.1 = .text name) ∧ property pair.2) →
      property (.mapping (Entries.ofPairs pairs))

namespace Built

variable {property : Data → Prop}

mutual

theorem of_value (built : Built property) : (fuel : ℕ) → {text after : List Char} → {data : Data} →
    value fuel text = .ok (data, after) → property data
  | 0, _, _, _, read => by cases read
  | fuel + 1, text, after, data, read => by
      simp only [value] at read
      split at read
      · rcases bind_eq_ok_iff.mp read with ⟨_, _, returned⟩
        cases returned
        exact built.text _
      · split at read
        · cases read
          exact built.list (by simp)
        · rcases bind_eq_ok_iff.mp read with ⟨⟨items, _⟩, inner, returned⟩
          cases returned
          exact built.list (built.of_items fuel inner)
      · split at read
        · cases read
          exact built.mapping (by simp : ∀ pair ∈ [], _)
        · rcases bind_eq_ok_iff.mp read with ⟨⟨pairs, _⟩, inner, returned⟩
          cases returned
          exact built.mapping (built.of_members fuel inner)
      · exact built.plain read

theorem of_items (built : Built property) : (fuel : ℕ) → {text after : List Char} →
    {found : List Data} → items fuel text = .ok (found, after) → ∀ item ∈ found, property item
  | 0, _, _, _, read => by cases read
  | fuel + 1, text, after, found, read => by
      rw [items] at read
      rcases bind_eq_ok_iff.mp read with ⟨⟨first, afterFirst⟩, inner, goesOn⟩
      have firstHolds := built.of_value fuel inner
      simp only at goesOn
      split at goesOn
      · cases goesOn
        simpa using firstHolds
      · rcases bind_eq_ok_iff.mp goesOn with ⟨⟨others, _⟩, rest, returned⟩
        cases returned
        exact List.forall_mem_cons.mpr ⟨firstHolds, built.of_items fuel rest⟩
      · cases goesOn

theorem of_members (built : Built property) : (fuel : ℕ) → {text after : List Char} →
    {found : List (Scalar × Data)} → members fuel text = .ok (found, after) →
      ∀ member ∈ found, (∃ name, member.1 = .text name) ∧ property member.2
  | 0, _, _, _, read => by cases read
  | fuel + 1, text, after, found, read => by
      simp only [members] at read
      split at read
      · rcases bind_eq_ok_iff.mp read with ⟨⟨name, afterName⟩, _, goesOn⟩
        simp only at goesOn
        split at goesOn
        · rcases bind_eq_ok_iff.mp goesOn with ⟨⟨first, afterFirst⟩, inner, goesOn⟩
          have firstHolds := built.of_value fuel inner
          simp only at goesOn
          split at goesOn
          · cases goesOn
            simpa using firstHolds
          · rcases bind_eq_ok_iff.mp goesOn with ⟨⟨others, _⟩, rest, returned⟩
            cases returned
            exact List.forall_mem_cons.mpr ⟨⟨⟨name, rfl⟩, firstHolds⟩, built.of_members fuel rest⟩
          · cases goesOn
        · cases goesOn
      · cases read

end

theorem of_decode (built : Built property) {text : String} {data : Data}
    (read : decode text = .ok data) : property data := by
  simp only [decode] at read
  split at read
  · next whole =>
      cases read
      simp only [wholeText] at whole
      split at whole
      · cases whole
      · rcases bind_eq_ok_iff.mp whole with ⟨⟨result, after⟩, inner, goesOn⟩
        simp only at goesOn
        split at goesOn
        · cases goesOn
          exact built.of_value _ inner
        · cases goesOn
  · cases read
  · cases read

end Built

theorem built_isJson : Built Data.IsJson where
  plain := plainValue_isJson
  text := Data.isJson_text
  list := .list
  mapping := by
    intro pairs each
    rcases Entries.ofPairs_named fun pair mem => (each pair mem).1 with ⟨named, values⟩
    refine .mapping named ?_
    intro entry mem
    rcases values entry mem with ⟨pair, pairMem, same⟩
    rw [same]
    exact (each pair pairMem).2

/-- What a text denotes is a value of the format. -/
theorem isJson_of_decode {text : String} {data : Data} (read : decode text = .ok data) :
    data.IsJson :=
  built_isJson.of_decode read

end Json

end Scorecard
