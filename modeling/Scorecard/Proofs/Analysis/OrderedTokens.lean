import Mathlib
import Scorecard.Analysis.Probes
import Scorecard.Proofs.Text.Lines
import Scorecard.Proofs.Text.Pattern
import Scorecard.Proofs.Text.Spelling

/-!
# Texts in order on one line

The probe looks for each token after the earliest occurrence of the one before and never goes back.
A line may hold the tokens at later places too, so there are many ways to find them, and a search
that goes back may have to try all of them. But whatever can be found after a later occurrence can
be found after an earlier one, with a longer gap. So the one pass misses nothing, and the probe
fires where a pattern would that allows anything between the tokens.
-/

namespace Scorecard

/-- The line is a beginning followed by the tokens, each with some text after it. -/
def IsWoven (tokens : List String) (line : List Char) : Prop :=
  ∃ first gaps, gaps.length = tokens.length ∧
    line = first ++ (List.zipWith (fun token gap => token.toList ++ gap) tokens gaps).flatten

@[simp]
theorem isWoven_nil (line : List Char) : IsWoven [] line :=
  ⟨line, [], rfl, by simp⟩

theorem isWoven_cons {token : String} {tokens : List String} {line : List Char} :
    IsWoven (token :: tokens) line ↔
      ∃ before rest, line = before ++ (token.toList ++ rest) ∧ IsWoven tokens rest := by
  constructor
  · rintro ⟨first, gaps, count, rfl⟩
    rcases gaps with _ | ⟨gap, gaps⟩
    · simp at count
    · exact ⟨first, _, by simp, gap, gaps, by simpa using count, rfl⟩
  · rintro ⟨before, _, rfl, gap, gaps, count, rfl⟩
    exact ⟨before, gap :: gaps, by simp [count], by simp⟩

theorem IsWoven.append_left {tokens : List String} {line : List Char} (woven : IsWoven tokens line)
    (more : List Char) : IsWoven tokens (more ++ line) := by
  rcases woven with ⟨first, gaps, count, rfl⟩
  exact ⟨more ++ first, gaps, count, (List.append_assoc _ _ _).symm⟩

theorem IsWoven.append_right {tokens : List String} {line : List Char} (woven : IsWoven tokens line)
    (more : List Char) : IsWoven tokens (line ++ more) := by
  induction tokens generalizing line with
  | nil => simp
  | cons token tokens ih =>
      rcases isWoven_cons.mp woven with ⟨before, rest, rfl, following⟩
      exact isWoven_cons.mpr ⟨before, rest ++ more, by simp, ih following⟩

theorem IsWoven.of_infix {tokens : List String} {piece line : List Char}
    (woven : IsWoven tokens piece) (inside : piece <:+: line) : IsWoven tokens line := by
  rcases inside with ⟨before, after, rfl⟩
  exact (woven.append_left before).append_right after

theorem dropThrough?_of_dropStart? {piece text after : List Char}
    (starts : dropStart? piece text = some after) : dropThrough? piece text = some after := by
  cases text with
  | nil => exact starts
  | cons c text => rw [dropThrough?, starts]

theorem of_dropThrough? {piece text after : List Char}
    (found : dropThrough? piece text = some after) :
    ∃ before, text = before ++ (piece ++ after) := by
  induction text with
  | nil =>
      refine ⟨[], ?_⟩
      exact (dropStart?_eq_some_iff piece _ after).mp found
  | cons c text ih =>
      rw [dropThrough?] at found
      split at found
      · next starts =>
          cases found
          refine ⟨[], ?_⟩
          exact (dropStart?_eq_some_iff piece _ after).mp starts
      · rcases ih found with ⟨before, rfl⟩
        exact ⟨c :: before, rfl⟩

/-- Every occurrence leaves no more than the earliest one. -/
theorem exists_dropThrough? (piece before after : List Char) :
    ∃ skipped, dropThrough? piece (before ++ (piece ++ after)) = some (skipped ++ after) := by
  induction before with
  | nil => exact ⟨[], dropThrough?_of_dropStart? ((dropStart?_eq_some_iff _ _ _).mpr rfl)⟩
  | cons c before ih =>
      cases starts : dropStart? piece (c :: before ++ (piece ++ after)) with
      | none =>
          rw [List.cons_append] at starts ⊢
          rw [dropThrough?, starts]
          exact ih
      | some earliest =>
          have same := (dropStart?_eq_some_iff _ _ _).mp starts
          have longer : after.length ≤ earliest.length := by
            have := congrArg List.length same
            simp only [List.length_append, List.length_cons] at this
            omega
          have suffix : after <:+ piece ++ earliest := same ▸ ⟨c :: before ++ piece, by simp⟩
          rcases List.suffix_of_suffix_length_le suffix (List.suffix_append piece earliest)
            longer with ⟨skipped, rfl⟩
          exact ⟨skipped, dropThrough?_of_dropStart? starts⟩

/-- The pass that takes the earliest occurrence of each token finds the tokens wherever they
stand. -/
theorem holdsInOrder_iff (tokens : List String) (line : List Char) :
    holdsInOrder tokens line = true ↔ IsWoven tokens line := by
  induction tokens generalizing line with
  | nil => simp [holdsInOrder]
  | cons token tokens ih =>
      rw [holdsInOrder, isWoven_cons]
      constructor
      · intro holds
        split at holds
        · contradiction
        · next after found =>
            rcases of_dropThrough? found with ⟨before, rfl⟩
            exact ⟨before, after, rfl, (ih after).mp holds⟩
      · rintro ⟨before, rest, rfl, woven⟩
        rcases exists_dropThrough? token.toList before rest with ⟨skipped, found⟩
        rw [found]
        exact (ih _).mpr (woven.append_left skipped)

/-- The tokens with any characters of a line between them. -/
def spacedOut (tokens : List String) : List Step :=
  List.intercalate [.run (· != '\n')] (tokens.map Step.literal)

theorem spells_spacedOut_singleton {token : String} {text : List Char} :
    Step.Spells (spacedOut [token]) text ↔ text = token.toList := by
  have shape : spacedOut [token] = Step.literal token ++ [] := by simp [spacedOut, List.intercalate]
  rw [shape, Step.spells_literal]
  simp

theorem spells_spacedOut_cons {token next : String} {tokens : List String} {text : List Char} :
    Step.Spells (spacedOut (token :: next :: tokens)) text ↔ ∃ gap rest,
      text = token.toList ++ (gap ++ rest) ∧ '\n' ∉ gap ∧
      Step.Spells (spacedOut (next :: tokens)) rest := by
  have shape : spacedOut (token :: next :: tokens) =
      Step.literal token ++ .run (· != '\n') :: spacedOut (next :: tokens) := by
    simp [spacedOut, List.intercalate]
  simp only [shape, Step.spells_literal, Step.spells_run_ne]
  constructor
  · rintro ⟨_, rfl, gap, rest, rfl, absent, spelled⟩
    exact ⟨gap, rest, rfl, absent, spelled⟩
  · rintro ⟨gap, rest, rfl, absent, spelled⟩
    exact ⟨_, rfl, gap, rest, rfl, absent, spelled⟩

/-- What the pattern spells is a piece of one line that holds the tokens. -/
theorem isWoven_of_spells {tokens : List String} {piece : List Char}
    (inLine : ∀ token ∈ tokens, '\n' ∉ token.toList)
    (spelled : Step.Spells (spacedOut tokens) piece) : IsWoven tokens piece ∧ '\n' ∉ piece := by
  induction tokens generalizing piece with
  | nil =>
      cases spelled
      simp
  | cons token tokens ih =>
      rw [List.forall_mem_cons] at inLine
      cases tokens with
      | nil =>
          cases spells_spacedOut_singleton.mp spelled
          exact ⟨isWoven_cons.mpr ⟨[], [], by simp, isWoven_nil _⟩, inLine.1⟩
      | cons next tokens =>
          rcases spells_spacedOut_cons.mp spelled with ⟨gap, rest, rfl, absent, spelled⟩
          rcases ih inLine.2 spelled with ⟨woven, restInLine⟩
          exact ⟨isWoven_cons.mpr ⟨[], gap ++ rest, rfl, woven.append_left gap⟩,
            by simp [inLine.1, absent, restInLine]⟩

theorem IsWoven.exists_spells {tokens : List String} {line : List Char}
    (woven : IsWoven tokens line) (inLine : '\n' ∉ line) :
    ∃ piece, piece <:+: line ∧ Step.Spells (spacedOut tokens) piece := by
  induction tokens generalizing line with
  | nil => exact ⟨[], List.nil_infix, rfl⟩
  | cons token tokens ih =>
      rcases isWoven_cons.mp woven with ⟨before, rest, rfl, following⟩
      cases tokens with
      | nil => exact ⟨token.toList, ⟨before, rest, by simp⟩, spells_spacedOut_singleton.mpr rfl⟩
      | cons next tokens =>
          simp only [List.mem_append, not_or] at inLine
          rcases ih following inLine.2.2 with ⟨piece, ⟨gap, after, rfl⟩, spelled⟩
          refine ⟨token.toList ++ (gap ++ piece), ⟨before, after, by simp⟩, ?_⟩
          refine spells_spacedOut_cons.mpr ⟨gap, piece, rfl, ?_, spelled⟩
          simp_all

/-- The probe fires if and only if one line is a beginning followed by the tokens, each with some
text after it; and for tokens that fit on a line if and only if the pattern with anything between
them occurs. -/
theorem fires_ordered_iff (tokens : List String) (source : List Char) :
    ((Probe.ordered tokens).fires source = true ↔ ∃ line ∈ splitLines source, IsWoven tokens line) ∧
      ((∀ token ∈ tokens, '\n' ∉ token.toList) →
        ((Probe.ordered tokens).fires source = true ↔
          ∃ piece, piece <:+: source ∧ Step.Spells (spacedOut tokens) piece)) := by
  have lines : (Probe.ordered tokens).fires source = true ↔
      ∃ line ∈ splitLines source, IsWoven tokens line := by
    simp only [Probe.fires, orderedTokensFire, List.any_eq_true, holdsInOrder_iff]
  refine ⟨lines, fun inLine => lines.trans ⟨?_, ?_⟩⟩
  · rintro ⟨line, mem, woven⟩
    have absent := notMem_of_mem_splitAtChar mem
    rcases woven.exists_spells absent with ⟨piece, inside, spelled⟩
    have whole : line <:+: source :=
      (infix_iff_exists_mem_splitAtChar absent source).mpr ⟨line, mem, List.infix_rfl⟩
    exact ⟨piece, inside.trans whole, spelled⟩
  · rintro ⟨piece, inside, spelled⟩
    rcases isWoven_of_spells inLine spelled with ⟨woven, absent⟩
    rcases (infix_iff_exists_mem_splitAtChar absent source).mp inside with ⟨line, mem, inside⟩
    exact ⟨line, mem, woven.of_infix inside⟩

/-- A query put together from texts is found by the probe, and the pattern stands in the text. -/
theorem fires_ordered_query :
    (∀ token ∈ ["SELECT", "FROM", "WHERE", "+"], '\n' ∉ token.toList) ∧
      (Probe.ordered ["SELECT", "FROM", "WHERE", "+"]).fires
        "x;\nq(\"SELECT a FROM b WHERE c=\" + d)".toList = true ∧
      ∃ piece, piece <:+: "x;\nq(\"SELECT a FROM b WHERE c=\" + d)".toList ∧
        Step.Spells (spacedOut ["SELECT", "FROM", "WHERE", "+"]) piece := by
  have inLine : ∀ token ∈ ["SELECT", "FROM", "WHERE", "+"], '\n' ∉ token.toList := by decide
  have fires : (Probe.ordered ["SELECT", "FROM", "WHERE", "+"]).fires
      "x;\nq(\"SELECT a FROM b WHERE c=\" + d)".toList = true := by
    decide
  exact ⟨inLine, fires, ((fires_ordered_iff _ _).2 inLine).mp fires⟩

end Scorecard
