import Scorecard.Proofs.Entries

/-!
# Edits of documents

A mapping is edited by an insertion, by leaving entries out or by a change of the value under one
key; a document is edited by an edit at one place of it. An edit says what is then found under which
key, and a document that has no such place stays as it is.
-/

namespace Scorecard

theorem Scalar.sameKey_text_iff {key : Scalar} {name : String} :
    key.sameKey (.text name) = true ↔ key = .text name := by
  cases key <;> simp [Scalar.sameKey, Scalar.number?]

namespace Entries

/-- The entries whose keys are none of the given names. -/
def without (entries : Entries) (names : List String) : Entries :=
  entries.filter fun entry => ∀ name ∈ names, entry.1 ≠ .text name

/-- The entries with the value under a name changed. -/
def modify (entries : Entries) (name : String) (change : Data → Data) : Entries :=
  entries.map fun entry => (entry.1, if entry.1 = .text name then change entry.2 else entry.2)

variable {name other : String}

theorem get?_cons (entry : Scalar × Data) (rest : Entries) (name : String) :
    Entries.get? (entry :: rest) name =
      if entry.1 = .text name then some entry.2 else Entries.get? rest name := by
  simp only [get?, find?, List.find?_cons]
  split
  · next same => rw [if_pos (Scalar.sameKey_text_iff.mp same), Option.map_some]
  · next different =>
      rw [if_neg]
      intro same
      rw [Scalar.sameKey_text_iff.mpr same] at different
      cases different

theorem get?_insert_self (entries : Entries) (name : String) (value : Data) :
    (entries.insert (.text name) value).get? name = some value := by
  induction entries with
  | nil => simp [insert, get?_cons]
  | cons entry rest ih =>
      rw [insert]
      split
      · next same => rw [get?_cons, if_pos (Scalar.sameKey_text_iff.mp same)]
      · next different => rw [get?_cons, if_neg (mt Scalar.sameKey_text_iff.mpr different), ih]

theorem get?_insert_of_ne (different : other ≠ name) (entries : Entries) (value : Data) :
    (entries.insert (.text name) value).get? other = entries.get? other := by
  induction entries with
  | nil =>
      have notFirst : Scalar.text name ≠ .text other :=
        fun same => different (Scalar.text.inj same).symm
      rw [insert, get?_cons, if_neg notFirst]
  | cons entry rest ih =>
      rw [insert]
      split
      · next same =>
          have notFirst : entry.1 ≠ .text other := by
            rw [Scalar.sameKey_text_iff.mp same]
            exact fun same => different (Scalar.text.inj same).symm
          rw [get?_cons, get?_cons, if_neg notFirst, if_neg notFirst]
      · rw [get?_cons, get?_cons, ih]

theorem get?_without_of_mem {names : List String} (mem : name ∈ names) (entries : Entries) :
    (entries.without names).get? name = none := by
  induction entries with
  | nil => rfl
  | cons entry rest ih =>
      rw [without, List.filter_cons]
      split
      · next kept =>
          rw [get?_cons, if_neg (of_decide_eq_true kept name mem)]
          exact ih
      · exact ih

theorem get?_without_of_notMem {names : List String} (notMem : name ∉ names) (entries : Entries) :
    (entries.without names).get? name = entries.get? name := by
  induction entries with
  | nil => rfl
  | cons entry rest ih =>
      rw [without, List.filter_cons, get?_cons]
      split
      · rw [get?_cons]
        exact if_congr Iff.rfl rfl ih
      · next dropped =>
          have notFirst : entry.1 ≠ .text name := by
            intro same
            apply dropped
            simp only [same, ne_eq, Scalar.text.injEq, decide_eq_true_eq]
            rintro _ mem rfl
            exact notMem mem
          rw [if_neg notFirst]
          exact ih

theorem get?_modify_self (entries : Entries) (name : String) (change : Data → Data) :
    (entries.modify name change).get? name = (entries.get? name).map change := by
  induction entries with
  | nil => rfl
  | cons entry rest ih =>
      rw [modify, List.map_cons, get?_cons, get?_cons]
      split
      · rfl
      · exact ih

theorem get?_modify_of_ne (different : other ≠ name) (entries : Entries) (change : Data → Data) :
    (entries.modify name change).get? other = entries.get? other := by
  induction entries with
  | nil => rfl
  | cons entry rest ih =>
      rw [modify, List.map_cons, get?_cons, get?_cons]
      split
      · next changed =>
          have notSought : entry.1 ≠ .text other := by
            intro same
            exact different (Scalar.text.inj (same.symm.trans changed))
          rw [if_neg notSought, if_neg notSought]
          exact ih
      · exact if_congr Iff.rfl rfl ih

end Entries

namespace Data

/-- The document with the entries of its mapping edited. -/
def editEntries (edit : Entries → Entries) : Data → Data
  | .mapping entries => .mapping (edit entries)
  | other => other

/-- The document with the value under a name of its mapping changed. -/
def editKey (name : String) (change : Data → Data) : Data → Data :=
  editEntries fun entries => entries.modify name change

/-- The document with one item of its list changed. -/
def editItem (index : ℕ) (change : Data → Data) : Data → Data
  | .list items => .list (items.modify index change)
  | other => other

/-- The items with the entries of one of the mappings among them edited; only mappings are
counted. -/
def editMapping (edit : Entries → Entries) : ℕ → List Data → List Data
  | _, [] => []
  | 0, .mapping entries :: rest => .mapping (edit entries) :: rest
  | index + 1, .mapping entries :: rest => .mapping entries :: editMapping edit index rest
  | index, item :: rest => item :: editMapping edit index rest

end Data

end Scorecard
