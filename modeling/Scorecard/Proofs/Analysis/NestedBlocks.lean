import Mathlib
import Scorecard.Analysis.LongFunctions

/-!
# Nested blocks of lines

A block starts at a line and is open for some lines after it. Blocks that are nested lie in one
another or apart, so at most one outermost block is open before a line, and when it ends, all blocks
end that have started since.

A scanner for functions is in one block at a time and forgets the starts inside it. The invariant is
that the block it is in is the outermost one that is open, and that it is in none only if none is
open, whether outermost or not.
-/

namespace Scorecard

/-- If one more item is counted and nothing changes for the others, the count grows by that item. -/
theorem card_filter_of_agree {items : Finset ℕ} {known counted : ℕ → Prop} [DecidablePred known]
    [DecidablePred counted] {extra : ℕ} (mem : extra ∈ items) (unknown : ¬ known extra)
    (agree : ∀ item ∈ items, item ≠ extra → (counted item ↔ known item)) :
    (items.filter counted).card = (items.filter known).card + if counted extra then 1 else 0 := by
  by_cases counts : counted extra
  · have whole : items.filter counted = insert extra (items.filter known) := by
      ext item
      by_cases same : item = extra
      · simp [same, mem, counts]
      · simp only [Finset.mem_filter, Finset.mem_insert, same, false_or]
        exact and_congr_right fun itemMem => agree item itemMem same
    rw [whole, Finset.card_insert_of_notMem (by simp [unknown]), if_pos counts]
  · rw [if_neg counts, Nat.add_zero]
    refine congrArg _ (Finset.filter_congr fun item itemMem => ?_)
    by_cases same : item = extra
    · simp [same, counts, unknown]
    · exact agree item itemMem same

section Blocks

variable (starts : ℕ → Prop) (inside isOpen : ℕ → ℕ → Prop)

/-- A start that lies inside no earlier one. -/
def IsOutermost (position : ℕ) : Prop :=
  starts position ∧ ∀ outer < position, starts outer → ¬ inside outer position

instance [DecidablePred starts] [DecidableRel inside] : DecidablePred (IsOutermost starts inside) :=
  fun _ => inferInstanceAs (Decidable (_ ∧ ∀ _ < _, _))

/-- Blocks that are nested: `inside outer inner` tells that the line `inner` lies in the block that
starts at `outer`, and `isOpen first position` that the block from `first` on has not ended before
the line `position`. -/
structure Nested : Prop where
  /-- A block takes in the line at which it starts. -/
  opens : ∀ {first}, starts first → isOpen first (first + 1)
  /-- A block that has ended does not open again. -/
  isOpen_of_succ : ∀ {first position}, isOpen first (position + 1) → isOpen first position
  /-- A block takes in all lines until it ends. -/
  inside_of_isOpen : ∀ {outer inner position}, outer < inner → inner < position →
    isOpen outer position → inside outer inner
  /-- A block does not end before one that starts inside it. -/
  isOpen_of_inside : ∀ {outer inner position}, outer < inner → starts inner → inside outer inner →
    isOpen inner position → isOpen outer position

namespace Nested

variable {starts inside isOpen} {first other position : ℕ}

theorem isOpen_succ_of_inside (nested : Nested starts inside isOpen) (before : other < position)
    (here : starts position) (around : inside other position) : isOpen other (position + 1) :=
  nested.isOpen_of_inside before here around (nested.opens here)

/-- Two outermost blocks are not open before the same line. -/
theorem eq_of_isOpen (nested : Nested starts inside isOpen)
    (outermost : IsOutermost starts inside first) (otherOutermost : IsOutermost starts inside other)
    (before : first < position) (otherBefore : other < position) (opened : isOpen first position)
    (otherOpened : isOpen other position) : other = first := by
  rcases lt_trichotomy other first with less | same | greater
  · exact absurd (nested.inside_of_isOpen less before otherOpened)
      (outermost.2 other less otherOutermost.1)
  · exact same
  · exact absurd (nested.inside_of_isOpen greater otherBefore opened)
      (otherOutermost.2 first greater outermost.1)

/-- No block outlasts the outermost one around it. -/
theorem not_isOpen_of_ended (nested : Nested starts inside isOpen)
    (outermost : IsOutermost starts inside first) (before : first < position)
    (opened : isOpen first position) (ended : ¬ isOpen first (position + 1))
    (otherBefore : other < position) (otherStarts : starts other) :
    ¬ isOpen other (position + 1) := by
  intro otherOpened
  rcases lt_trichotomy other first with less | same | greater
  · exact outermost.2 other less otherStarts
      (nested.inside_of_isOpen less (Nat.lt_succ_of_lt before) otherOpened)
  · exact ended (same ▸ otherOpened)
  · exact ended (nested.isOpen_of_inside greater otherStarts
      (nested.inside_of_isOpen greater otherBefore opened) otherOpened)

end Nested

variable [DecidablePred starts] [DecidableRel inside] [DecidableRel isOpen] (extent : ℕ → ℕ)
  (limit : ℤ)

/-- The count of the outermost blocks that are longer than the limit and have ended before a
line. -/
def endedLong (position : ℕ) : ℕ :=
  ((Finset.range position).filter fun first =>
    IsOutermost starts inside first ∧ ¬ isOpen first position ∧ limit < extent first).card

namespace Nested

variable {starts inside isOpen} {extent} {limit} {first position : ℕ}

theorem endedLong_succ_eq (nested : Nested starts inside isOpen) (position : ℕ) :
    endedLong starts inside isOpen extent limit (position + 1) =
      ((Finset.range position).filter fun first =>
      IsOutermost starts inside first ∧ ¬ isOpen first (position + 1) ∧
        limit < extent first).card := by
  rw [endedLong, Finset.range_add_one, Finset.filter_insert, if_neg]
  rintro ⟨outermost, ended, _⟩
  exact ended (nested.opens outermost.1)

theorem endedLong_succ_of_agree (nested : Nested starts inside isOpen)
    (agree : ∀ first < position, IsOutermost starts inside first →
      (isOpen first (position + 1) ↔ isOpen first position)) :
    endedLong starts inside isOpen extent limit (position + 1) =
      endedLong starts inside isOpen extent limit position := by
  rw [nested.endedLong_succ_eq, endedLong]
  refine congrArg _ (Finset.filter_congr fun first mem => and_congr_right fun outermost => ?_)
  rw [agree first (Finset.mem_range.mp mem) outermost]

theorem endedLong_succ_of_none (nested : Nested starts inside isOpen)
    (none : ∀ first < position, starts first → ¬ isOpen first position) :
    endedLong starts inside isOpen extent limit (position + 1) =
      endedLong starts inside isOpen extent limit position :=
  nested.endedLong_succ_of_agree fun first before outermost =>
    ⟨nested.isOpen_of_succ, fun opened => absurd opened (none first before outermost.1)⟩

theorem endedLong_succ_of_isOpen (nested : Nested starts inside isOpen)
    (outermost : IsOutermost starts inside first) (before : first < position)
    (opened : isOpen first (position + 1)) :
    endedLong starts inside isOpen extent limit (position + 1) =
      endedLong starts inside isOpen extent limit position :=
  nested.endedLong_succ_of_agree fun other otherBefore otherOutermost =>
    ⟨nested.isOpen_of_succ, fun otherOpened => by
      rwa [nested.eq_of_isOpen outermost otherOutermost before otherBefore
        (nested.isOpen_of_succ opened) otherOpened]⟩

/-- If an outermost block ends, it is counted if it is long, and the others that are counted stay
the same. -/
theorem card_of_isOpen (nested : Nested starts inside isOpen) {ended : ℕ → Prop}
    [DecidablePred ended] (outermost : IsOutermost starts inside first) (before : first < position)
    (opened : isOpen first position) (endsHere : ended first)
    (endedBefore : ∀ other < position, ¬ isOpen other position → ended other) :
    ((Finset.range position).filter fun first =>
      IsOutermost starts inside first ∧ ended first ∧ limit < extent first).card =
      endedLong starts inside isOpen extent limit position +
      if limit < extent first then 1 else 0 := by
  have uncounted :
      ¬ (IsOutermost starts inside first ∧ ¬ isOpen first position ∧ limit < extent first) :=
    fun counted => counted.2.1 opened
  have others : ∀ other ∈ Finset.range position, other ≠ first →
      ((IsOutermost starts inside other ∧ ended other ∧ limit < extent other) ↔
        IsOutermost starts inside other ∧ ¬ isOpen other position ∧ limit < extent other) := by
    intro other mem different
    rw [Finset.mem_range] at mem
    refine and_congr_right fun otherOutermost => and_congr_left fun _ =>
      ⟨fun _ otherOpened => ?_, ?_⟩
    · exact different (nested.eq_of_isOpen outermost otherOutermost before mem opened otherOpened)
    · exact endedBefore other mem
  rw [card_filter_of_agree (Finset.mem_range.mpr before) uncounted others, endedLong]
  simp only [outermost, endsHere, true_and]

theorem endedLong_succ_of_ended (nested : Nested starts inside isOpen)
    (outermost : IsOutermost starts inside first) (before : first < position)
    (opened : isOpen first position) (ended : ¬ isOpen first (position + 1)) :
    endedLong starts inside isOpen extent limit (position + 1) =
      endedLong starts inside isOpen extent limit position +
      if limit < extent first then 1 else 0 := by
  rw [nested.endedLong_succ_eq]
  exact nested.card_of_isOpen outermost before opened ended fun _ _ closed =>
    mt nested.isOpen_of_succ closed

/-- At the end of the text the open block is counted like one that has ended. -/
theorem card_outermost_of_isOpen (nested : Nested starts inside isOpen)
    (outermost : IsOutermost starts inside first) (before : first < position)
    (opened : isOpen first position) :
    ((Finset.range position).filter fun first =>
      IsOutermost starts inside first ∧ limit < extent first).card =
      endedLong starts inside isOpen extent limit position +
      if limit < extent first then 1 else 0 := by
  rw [← nested.card_of_isOpen outermost before opened trivial fun _ _ _ => trivial]
  simp only [true_and]

theorem card_outermost_of_none (none : ∀ first < position, starts first → ¬ isOpen first position) :
    ((Finset.range position).filter fun first =>
      IsOutermost starts inside first ∧ limit < extent first).card =
      endedLong starts inside isOpen extent limit position := by
  refine congrArg _ (Finset.filter_congr fun first mem => and_congr_right fun outermost => ?_)
  exact (and_iff_right (none first (Finset.mem_range.mp mem) outermost.1)).symm

end Nested

theorem FunctionScan.total_some {α : Type} (span : ℕ) (mark : α) (long : ℕ) (limit : ℤ) :
    FunctionScan.total ⟨some (span, mark), long⟩ limit = long + if limit < span then 1 else 0 := by
  rw [FunctionScan.total]
  simp only
  split <;> rfl

variable {α : Type} (mark : ℕ → ℕ → α)

/-- What a scan has found before a line: the outermost block that is open, with what it has marked
for the lines of the block, or that there is none. -/
inductive BlockScan : ℕ → FunctionScan α → Prop where
  | outside {position : ℕ} (closed : ∀ first < position, starts first → ¬ isOpen first position) :
      BlockScan position ⟨none, endedLong starts inside isOpen extent limit position⟩
  | inside {first last : ℕ} (ordered : first ≤ last) (outermost : IsOutermost starts inside first)
      (opened : isOpen first (last + 1)) :
      BlockScan (last + 1)
        ⟨some (last - first + 1, mark first last),
          endedLong starts inside isOpen extent limit (last + 1)⟩

namespace BlockScan

variable {starts inside isOpen} {extent} {limit} {mark} {first last position : ℕ}

/-- A block starts at a line before which all others have ended. -/
theorem fresh (nested : Nested starts inside isOpen)
    (closed : ∀ first < position, starts first → ¬ isOpen first (position + 1))
    (here : starts position) :
    BlockScan starts inside isOpen extent limit mark (position + 1)
      ⟨some (1, mark position position),
        endedLong starts inside isOpen extent limit (position + 1)⟩ := by
  have outermost : IsOutermost starts inside position :=
    ⟨here, fun outer before outerStarts around =>
      closed outer before outerStarts (nested.isOpen_succ_of_inside before here around)⟩
  simpa using BlockScan.inside le_rfl outermost (nested.opens here)

theorem idle (closed : ∀ first < position, starts first → ¬ isOpen first (position + 1))
    (quiet : ¬ starts position) :
    BlockScan starts inside isOpen extent limit mark (position + 1)
      ⟨none, endedLong starts inside isOpen extent limit (position + 1)⟩ := by
  refine .outside fun first before firstStarts => ?_
  rcases Nat.lt_succ_iff_lt_or_eq.mp before with earlier | rfl
  · exact closed first earlier firstStarts
  · exact absurd firstStarts quiet

theorem grows (nested : Nested starts inside isOpen) (ordered : first ≤ last)
    (outermost : IsOutermost starts inside first) (opened : isOpen first (last + 1 + 1)) :
    BlockScan starts inside isOpen extent limit mark (last + 1 + 1)
      ⟨some (last - first + 1 + 1, mark first (last + 1)),
        endedLong starts inside isOpen extent limit (last + 1)⟩ := by
  have span : last - first + 1 = last + 1 - first := (Nat.succ_sub ordered).symm
  rw [← nested.endedLong_succ_of_isOpen outermost (Nat.lt_succ_of_le ordered) opened, span]
  exact .inside (Nat.le_succ_of_le ordered) outermost opened

/-- At the end of the text the scan has counted the long ones of all outermost blocks. -/
theorem total (nested : Nested starts inside isOpen)
    (extent_of_isOpen : ∀ first, isOpen first position → extent first = position - first)
    {state : FunctionScan α}
    (scan : BlockScan starts inside isOpen extent limit mark position state) :
    state.total limit = ((Finset.range position).filter fun first =>
      IsOutermost starts inside first ∧ limit < extent first).card := by
  cases scan with
  | outside closed => exact (Nested.card_outermost_of_none closed).symm
  | @inside first last ordered outermost opened =>
      rw [nested.card_outermost_of_isOpen outermost (Nat.lt_succ_of_le ordered) opened,
        FunctionScan.total_some, extent_of_isOpen first opened, Nat.sub_add_comm ordered]

end BlockScan

end Blocks

end Scorecard
