import Scorecard.Proofs.Text.Matching

/-!
# What patterns spell

Steps spell a text that can be cut into pieces, one for each step, so that each step may take its
piece. A run may take any part of what it accepts, so there can be several ways to cut a text, and
to find one in general means to go back and try again.

The matcher takes every run whole and never goes back. It loses nothing if no character of a run can
stand at the start of what follows the run: then the text leaves no choice. All patterns of the
families are of this kind, and for such a pattern the matcher decides whether some text that the
pattern spells stands at the start of a text, or anywhere in it.
-/

namespace Scorecard

namespace Step

/-- The pieces that a step may take. -/
def MayTake : Step → List Char → Prop
  | .one accepts, piece => ∃ c, accepts c = true ∧ piece = [c]
  | .run accepts, piece => ∀ c ∈ piece, accepts c = true
  | .nonemptyRun accepts, piece => piece ≠ [] ∧ ∀ c ∈ piece, accepts c = true
  | .optional accepts, piece => piece.length ≤ 1 ∧ ∀ c ∈ piece, accepts c = true

/-- The text consists of pieces that the steps may take one after the other. -/
def Spells : List Step → List Char → Prop
  | [], text => text = []
  | step :: steps, text =>
      ∃ piece rest, text = piece ++ rest ∧ step.MayTake piece ∧ Spells steps rest

/-- The character may stand at the start of a text that the steps spell. -/
def MayStart : List Step → Char → Prop
  | [], _ => False
  | .one accepts :: _, c | .nonemptyRun accepts :: _, c => accepts c = true
  | .run accepts :: steps, c | .optional accepts :: steps, c => accepts c = true ∨ MayStart steps c

/-- No character that a run accepts may stand at the start of what follows the run. -/
def Definite : List Step → Prop
  | [] => True
  | .one _ :: steps => Definite steps
  | .run accepts :: steps | .nonemptyRun accepts :: steps | .optional accepts :: steps =>
      (∀ c, accepts c = true → ¬ MayStart steps c) ∧ Definite steps

theorem mayStart_of_spells {steps : List Step} {c : Char} {text : List Char}
    (spelled : Spells steps (c :: text)) : MayStart steps c := by
  induction steps with
  | nil => simp [Spells] at spelled
  | cons step steps ih =>
      rcases spelled with ⟨piece, rest, cut, taken, spelled⟩
      cases piece with
      | nil =>
          rw [List.nil_append] at cut
          subst cut
          cases step with
          | one accepts => simp [MayTake] at taken
          | nonemptyRun accepts => simp [MayTake] at taken
          | run accepts => exact Or.inr (ih spelled)
          | optional accepts => exact Or.inr (ih spelled)
      | cons first piece =>
          obtain ⟨rfl, -⟩ := List.cons_eq_cons.mp cut
          cases step with
          | one accepts =>
              rcases taken with ⟨d, accepted, whole⟩
              simp_all [MayStart]
          | nonemptyRun accepts => exact taken.2 c List.mem_cons_self
          | run accepts => exact Or.inl (taken c List.mem_cons_self)
          | optional accepts => exact Or.inl (taken.2 c List.mem_cons_self)

theorem mayTake_of_take? {step : Step} {text : List Char} {count : ℕ}
    (taken : step.take? text = some count) : step.MayTake (text.take count) := by
  have accepted := of_take? taken
  cases step with
  | one accepts =>
      cases text with
      | nil => simp [take?] at taken
      | cons c rest =>
          simp only [take?, Option.ite_none_right_eq_some, Option.some.injEq] at taken
          rcases taken with ⟨starts, rfl⟩
          exact ⟨c, starts, rfl⟩
  | run accepts => exact accepted.2
  | nonemptyRun accepts =>
      refine ⟨?_, accepted.2⟩
      simp only [take?, Option.ite_none_left_eq_some, Option.some.injEq] at taken
      rcases taken with ⟨some_taken, rfl⟩
      intro empty
      have := congrArg List.length empty
      simp only [List.length_take, List.length_nil] at this
      omega
  | optional accepts =>
      refine ⟨?_, accepted.2⟩
      have few : ((text.take 1).takeWhile accepts).length ≤ 1 :=
        (List.takeWhile_sublist accepts).length_le.trans (List.length_take_le 1 text)
      simp only [take?, Option.some.injEq] at taken
      have := List.length_take_le count text
      omega

/-- What the matcher takes is spelled by its steps. -/
theorem spells_of_length? {steps : List Step} {text : List Char} {length : ℕ}
    (found : length? steps text = some length) : Spells steps (text.take length) := by
  induction steps generalizing text length with
  | nil =>
      cases found
      rfl
  | cons step steps ih =>
      rcases length?_cons_eq_some.mp found with ⟨count, rest, taken, after, rfl⟩
      refine ⟨text.take count, (text.drop count).take rest, ?_, mayTake_of_take? taken, ih after⟩
      rw [Nat.add_comm, List.take_add]

theorem takeWhile_append_of_stops {accepts : Char → Bool} {piece after : List Char}
    (accepted : ∀ c ∈ piece, accepts c = true) (stops : ∀ c ∈ after.head?, accepts c = false) :
    (piece ++ after).takeWhile accepts = piece := by
  rw [List.takeWhile_append_of_pos accepted]
  cases after with
  | nil => simp
  | cons c after => simp [stops c rfl]

/-- What starts no spelling of the steps does not stand at the start of one. -/
theorem head_not_accepted {accepts : Char → Bool} {steps : List Step} {rest : List Char}
    (apart : ∀ c, accepts c = true → ¬ MayStart steps c) (spelled : Spells steps rest)
    (nonempty : rest ≠ []) (more : List Char) : ∀ c ∈ (rest ++ more).head?, accepts c = false := by
  intro c first
  cases rest with
  | nil => contradiction
  | cons d rest =>
      simp only [List.cons_append, List.head?_cons, Option.mem_def, Option.some.injEq] at first
      subst first
      by_contra accepted
      exact apart d (by simpa using accepted) (mayStart_of_spells spelled)

/-- A step takes its piece, or more if what follows needs nothing. -/
theorem exists_take? {step : Step} {steps : List Step} {piece rest : List Char}
    (definite : Definite (step :: steps)) (taken : step.MayTake piece) (spelled : Spells steps rest)
    (more : List Char) :
    ∃ count front after, step.take? (piece ++ (rest ++ more)) = some count ∧
      (piece ++ (rest ++ more)).drop count = front ++ after ∧ Spells steps front := by
  cases step with
  | one accepts =>
      rcases taken with ⟨c, accepted, rfl⟩
      exact ⟨1, rest, more, by simp [take?, accepted], by simp, spelled⟩
  | run accepts =>
      rcases eq_or_ne rest [] with rfl | nonempty
      · exact ⟨_, [], _, rfl, rfl, spelled⟩
      · have whole :=
          takeWhile_append_of_stops taken (head_not_accepted definite.1 spelled nonempty more)
        exact ⟨piece.length, rest, more, by simp [take?, whole], by simp, spelled⟩
  | nonemptyRun accepts =>
      have long : piece.length ≠ 0 := by simpa using taken.1
      rcases eq_or_ne rest [] with rfl | nonempty
      · have some_taken : ((piece ++ ([] ++ more)).takeWhile accepts).length ≠ 0 := by
          rw [List.takeWhile_append_of_pos taken.2, List.length_append]
          omega
        exact ⟨_, [], _, by rw [take?, if_neg some_taken], rfl, spelled⟩
      · have whole :=
          takeWhile_append_of_stops taken.2 (head_not_accepted definite.1 spelled nonempty more)
        exact ⟨piece.length, rest, more, by simp [take?, whole, long], by simp, spelled⟩
  | optional accepts =>
      rcases eq_or_ne rest [] with rfl | nonempty
      · exact ⟨_, [], _, rfl, rfl, spelled⟩
      · refine ⟨piece.length, rest, more, ?_, by simp, spelled⟩
        have stops := head_not_accepted definite.1 spelled nonempty more
        rcases piece with _ | ⟨c, _ | ⟨d, piece⟩⟩
        · cases after : rest ++ more with
          | nil => simp [take?]
          | cons c after => simp [take?, stops c (by simp [after])]
        · simp [take?, taken.2 c List.mem_cons_self]
        · simp [MayTake] at taken

/-- The matcher takes something if a text that the steps spell stands at the start. -/
theorem isSome_length?_of_spells {steps : List Step} {front : List Char} (definite : Definite steps)
    (spelled : Spells steps front) (more : List Char) :
    (length? steps (front ++ more)).isSome = true := by
  induction steps generalizing front more with
  | nil => rfl
  | cons step steps ih =>
      rcases spelled with ⟨piece, rest, rfl, taken, spelled⟩
      have following : Definite steps := by
        cases step with
        | one accepts => exact definite
        | _ => exact definite.2
      rcases exists_take? definite taken spelled more with
        ⟨count, front, after, count_eq, left, spelledFront⟩
      rw [List.append_assoc, length?_cons, count_eq, Option.bind_some, Option.isSome_map, left]
      exact ih following spelledFront after

theorem isSome_length?_iff {steps : List Step} (definite : Definite steps) (text : List Char) :
    (length? steps text).isSome = true ↔ ∃ front, front <+: text ∧ Spells steps front := by
  constructor
  · intro found
    rcases Option.isSome_iff_exists.mp found with ⟨length, found⟩
    exact ⟨text.take length, List.take_prefix _ _, spells_of_length? found⟩
  · rintro ⟨front, ⟨more, rfl⟩, spelled⟩
    exact isSome_length?_of_spells definite spelled more

@[simp]
theorem spells_nil {text : List Char} : Spells [] text ↔ text = [] :=
  Iff.rfl

theorem spells_one {accepts : Char → Bool} {steps : List Step} {text : List Char} :
    Spells (.one accepts :: steps) text ↔
      ∃ c rest, text = c :: rest ∧ accepts c = true ∧ Spells steps rest := by
  simp only [Spells, MayTake]
  constructor
  · rintro ⟨_, rest, rfl, ⟨c, accepted, rfl⟩, spelled⟩
    exact ⟨c, rest, rfl, accepted, spelled⟩
  · rintro ⟨c, rest, rfl, accepted, spelled⟩
    exact ⟨[c], rest, rfl, ⟨c, accepted, rfl⟩, spelled⟩

theorem spells_char {expected : Char} {steps : List Step} {text : List Char} :
    Spells (.char expected :: steps) text ↔
      ∃ rest, text = expected :: rest ∧ Spells steps rest := by
  simp [Spells, MayTake, char]

theorem spells_run {accepts : Char → Bool} {steps : List Step} {text : List Char} :
    Spells (.run accepts :: steps) text ↔
      ∃ piece rest, text = piece ++ rest ∧ (∀ c ∈ piece, accepts c = true) ∧ Spells steps rest :=
  Iff.rfl

/-- A run of everything but one character takes what does not hold that character. -/
theorem spells_run_ne {stop : Char} {steps : List Step} {text : List Char} :
    Spells (.run (· != stop) :: steps) text ↔
      ∃ piece rest, text = piece ++ rest ∧ stop ∉ piece ∧ Spells steps rest := by
  have others : ∀ piece : List Char, (∀ c ∈ piece, (c != stop) = true) ↔ stop ∉ piece := by
    intro piece
    simp only [bne_iff_ne]
    exact ⟨fun all mem => all stop mem rfl, fun absent c mem same => absent (same ▸ mem)⟩
  simp only [spells_run, others]

theorem spells_nonemptyRun {accepts : Char → Bool} {steps : List Step} {text : List Char} :
    Spells (.nonemptyRun accepts :: steps) text ↔ ∃ piece rest, text = piece ++ rest ∧
      (piece ≠ [] ∧ ∀ c ∈ piece, accepts c = true) ∧ Spells steps rest :=
  Iff.rfl

theorem spells_optional {accepts : Char → Bool} {steps : List Step} {text : List Char} :
    Spells (.optional accepts :: steps) text ↔
      Spells steps text ∨ ∃ c rest, text = c :: rest ∧ accepts c = true ∧ Spells steps rest := by
  simp only [Spells, MayTake]
  constructor
  · rintro ⟨piece, rest, rfl, ⟨few, accepted⟩, spelled⟩
    rcases piece with _ | ⟨c, _ | ⟨d, piece⟩⟩
    · exact .inl spelled
    · exact .inr ⟨c, rest, rfl, accepted c List.mem_cons_self, spelled⟩
    · simp at few
  · rintro (spelled | ⟨c, rest, rfl, accepted, spelled⟩)
    · exact ⟨[], text, rfl, by simp, spelled⟩
    · exact ⟨[c], rest, rfl, by simpa using accepted, spelled⟩

theorem spells_literal {word : String} {steps : List Step} {text : List Char} :
    Spells (literal word ++ steps) text ↔
      ∃ rest, text = word.toList ++ rest ∧ Spells steps rest := by
  rw [literal]
  induction word.toList generalizing text with
  | nil => simp
  | cons expected word ih =>
      rw [List.map_cons, List.cons_append]
      refine spells_char.trans ?_
      simp only [ih]
      constructor
      · rintro ⟨_, rfl, rest, rfl, spelled⟩
        exact ⟨rest, rfl, spelled⟩
      · rintro ⟨rest, rfl, spelled⟩
        exact ⟨_, rfl, rest, rfl, spelled⟩

@[simp]
theorem definite_literal {word : String} {steps : List Step} :
    Definite (literal word ++ steps) ↔ Definite steps := by
  rw [literal]
  induction word.toList with
  | nil => rfl
  | cons expected word ih => exact ih

theorem mayStart_literal {word : String} {first : Char} {letters : List Char} {steps : List Step}
    {c : Char} (shape : word.toList = first :: letters) :
    MayStart (literal word ++ steps) c ↔ c = first := by
  simp [literal, shape, MayStart]

end Step

namespace Pattern

/-- One of the alternatives spells the text. -/
def Spells (pattern : Pattern) (text : List Char) : Prop :=
  ∃ steps ∈ pattern, Step.Spells steps text

/-- Every alternative leaves the matcher no choice. -/
def Definite (pattern : Pattern) : Prop :=
  ∀ steps ∈ pattern, Step.Definite steps

variable {pattern : Pattern}

theorem matchesStart_iff (definite : pattern.Definite) (text : List Char) :
    pattern.matchesStart text = true ↔ ∃ front, front <+: text ∧ pattern.Spells front := by
  rw [matchesStart, length?, List.findSome?_isSome_iff]
  constructor
  · rintro ⟨steps, mem, found⟩
    rcases (Step.isSome_length?_iff (definite steps mem) text).mp found with
      ⟨front, starts, spelled⟩
    exact ⟨front, starts, steps, mem, spelled⟩
  · rintro ⟨front, starts, steps, mem, spelled⟩
    exact ⟨steps, mem,
      (Step.isSome_length?_iff (definite steps mem) text).mpr ⟨front, starts, spelled⟩⟩

theorem occursIn_iff (definite : pattern.Definite) (text : List Char) :
    pattern.occursIn text = true ↔ ∃ piece, piece <:+: text ∧ pattern.Spells piece := by
  induction text with
  | nil =>
      rw [occursIn, matchesStart_iff definite]
      simp
  | cons c rest ih =>
      rw [occursIn, Bool.or_eq_true, matchesStart_iff definite, ih]
      simp only [List.infix_cons_iff, or_and_right, exists_or]

end Pattern

end Scorecard
