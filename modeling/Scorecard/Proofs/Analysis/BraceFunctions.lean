import Scorecard.Proofs.Analysis.LineByLine
import Scorecard.Proofs.Analysis.NestedBlocks

/-!
# Long functions in code with braces

A function takes in the lines from its start to the first later one where the braces since the start
balance. The scanner is in one function at a time and forgets the signatures that it meets in there.

The braces of the lines from one start to the end of an inner function are those up to the inner
start and those of the inner function, so a function does not end before one inside it: the
functions are nested blocks. What the scanner marks of the function that it is in is the balance of
its lines so far.
-/

namespace Scorecard

section Braces

variable (hasSignature : List Char → Bool) (limit : ℤ) (lines : List (List Char))

/-- How many more braces the lines from the first to the last one open than they close. -/
def braceBalance (first last : ℕ) : ℤ :=
  ∑ position ∈ Finset.Icc first last, braceDelta (lineAt lines position)

/-- Whether a line holds a signature and opens more braces than it closes. -/
def StartsBraces (position : ℕ) : Prop :=
  hasSignature (lineAt lines position) = true ∧ 0 < braceDelta (lineAt lines position)

instance : DecidablePred (StartsBraces hasSignature lines) := fun _ =>
  inferInstanceAs (Decidable (_ ∧ _))

/-- Whether the braces since the first line have not balanced before a line. -/
def BracesOpen (first position : ℕ) : Prop :=
  ∀ last ∈ Finset.Ico first position, 0 < braceBalance lines first last

instance : DecidableRel (BracesOpen lines) := fun _ _ =>
  inferInstanceAs (Decidable (∀ _ ∈ _, _))

/-- The count of lines from a line to the first later one where the braces balance, or to the
end. -/
def braceExtent (first : ℕ) : ℕ :=
  match (List.range lines.length).find? fun last =>
    first < last ∧ braceBalance lines first last ≤ 0 with
  | some last => last - first + 1
  | none => lines.length - first

variable {hasSignature} {limit} {lines} {outer first last position : ℕ}

@[simp]
theorem braceBalance_self : braceBalance lines first first = braceDelta (lineAt lines first) := by
  simp [braceBalance]

theorem braceBalance_append {middle : ℕ} (left : first ≤ middle) (right : middle ≤ last) :
    braceBalance lines first last =
      braceBalance lines first middle + braceBalance lines (middle + 1) last := by
  simp only [braceBalance, ← Finset.Ico_add_one_right_eq_Icc]
  exact (Finset.sum_Ico_consecutive _ (by omega) (by omega)).symm

theorem braceBalance_succ (ordered : first ≤ last) :
    braceBalance lines first (last + 1) =
      braceBalance lines first last + braceDelta (lineAt lines (last + 1)) := by
  rw [braceBalance_append ordered (Nat.le_succ last), braceBalance_self]

theorem bracesOpen_succ (ordered : first ≤ position) :
    BracesOpen lines first (position + 1) ↔
      BracesOpen lines first position ∧ 0 < braceBalance lines first position := by
  rw [BracesOpen, BracesOpen, ← Finset.insert_Ico_right_eq_Ico_add_one ordered,
    Finset.forall_mem_insert, and_comm]

theorem BracesOpen.of_le {earlier : ℕ} (opened : BracesOpen lines first position)
    (ordered : earlier ≤ position) : BracesOpen lines first earlier :=
  fun last mem => opened last (Finset.Ico_subset_Ico_right ordered mem)

/-- What stands open inside an open block keeps it open. -/
theorem BracesOpen.trans {inner : ℕ} (ordered : outer < inner)
    (around : BracesOpen lines outer inner) (opened : BracesOpen lines inner position) :
    BracesOpen lines outer position := by
  intro last mem
  rw [Finset.mem_Ico] at mem
  by_cases before : last < inner
  · exact around last (Finset.mem_Ico.mpr ⟨mem.1, before⟩)
  · have outside := around (inner - 1) (Finset.mem_Ico.mpr (by omega))
    have inside := opened last (Finset.mem_Ico.mpr (by omega))
    rw [braceBalance_append (by omega : outer ≤ inner - 1) (by omega),
      Nat.sub_add_cancel (by omega)]
    exact Int.add_pos outside inside

variable (hasSignature lines) in
theorem nested_braces :
    Nested (StartsBraces hasSignature lines) (BracesOpen lines) (BracesOpen lines) where
  opens starts := by simpa [BracesOpen] using starts.2
  isOpen_of_succ opened := opened.of_le (Nat.le_succ _)
  inside_of_isOpen _ before opened := opened.of_le before.le
  isOpen_of_inside ordered _ around opened := around.trans ordered opened

theorem braceExtent_of_ended (ordered : first < last) (inText : last < lines.length)
    (opened : BracesOpen lines first last) (ended : braceBalance lines first last ≤ 0) :
    braceExtent lines first = last - first + 1 := by
  have found :
      ((List.range lines.length).find? fun last =>
        first < last ∧ braceBalance lines first last ≤ 0) = some last := by
    rw [List.find?_range_eq_some]
    refine ⟨by simp [ordered, ended], List.mem_range.mpr inText, fun earlier before => ?_⟩
    simp only [Bool.not_eq_true', decide_eq_false_iff_not, not_and, not_le]
    exact fun after => opened earlier (Finset.mem_Ico.mpr ⟨after.le, before⟩)
  rw [braceExtent, found]

theorem braceExtent_of_isOpen (opened : BracesOpen lines first lines.length) :
    braceExtent lines first = lines.length - first := by
  have absent :
      ((List.range lines.length).find? fun last =>
        first < last ∧ braceBalance lines first last ≤ 0) = none := by
    rw [List.find?_range_eq_none]
    intro last before
    simp only [Bool.not_eq_true', decide_eq_false_iff_not, not_and, not_le]
    exact fun after => opened last (Finset.mem_Ico.mpr ⟨after.le, before⟩)
  rw [braceExtent, absent]

variable (hasSignature limit lines) in
/-- What the scan has found before a line. -/
abbrev BraceScan : ℕ → FunctionScan ℤ → Prop :=
  BlockScan (StartsBraces hasSignature lines) (BracesOpen lines) (BracesOpen lines)
    (braceExtent lines) limit (braceBalance lines)

theorem BraceScan.next {state : FunctionScan ℤ} (inText : position < lines.length)
    (scan : BraceScan hasSignature limit lines position state) :
    BraceScan hasSignature limit lines (position + 1)
      (nextBraceLine hasSignature limit state (lineAt lines position)) := by
  have nested := nested_braces hasSignature lines
  cases scan with
  | outside closed =>
      have stillClosed : ∀ first < position, StartsBraces hasSignature lines first →
          ¬ BracesOpen lines first (position + 1) :=
        fun first before starts => mt nested.isOpen_of_succ (closed first before starts)
      simp only [nextBraceLine, ← nested.endedLong_succ_of_none closed]
      by_cases starts :
        hasSignature (lineAt lines position) = true ∧ 0 < braceDelta (lineAt lines position)
      · rw [if_pos starts, ← braceBalance_self]
        exact .fresh nested stillClosed starts
      · rw [if_neg starts]
        exact .idle stillClosed starts
  | @inside first last ordered outermost opened =>
      have before : first < last + 1 := Nat.lt_succ_of_le ordered
      simp only [nextBraceLine, ← braceBalance_succ ordered]
      by_cases ended : braceBalance lines first (last + 1) ≤ 0
      · have closed : ¬ BracesOpen lines first (last + 1 + 1) := fun stillOpen =>
          not_lt.mpr ended ((bracesOpen_succ before.le).mp stillOpen).2
        -- The line that ends a function closes more braces than it opens.
        have quiet : ¬ StartsBraces hasSignature lines (last + 1) := fun starts =>
          not_lt.mpr ended (braceBalance_succ ordered ▸
            Int.add_pos ((bracesOpen_succ ordered).mp opened).2 starts.2)
        rw [if_pos ended, FunctionScan.total_some, ← Nat.sub_add_comm ordered,
          ← braceExtent_of_ended before inText opened ended,
          ← nested.endedLong_succ_of_ended outermost before opened closed]
        exact .idle (fun _ otherBefore otherStarts =>
          nested.not_isOpen_of_ended outermost before opened closed otherBefore otherStarts) quiet
      · rw [if_neg ended]
        exact .grows nested ordered outermost
          ((bracesOpen_succ before.le).mpr ⟨opened, not_le.mp ended⟩)

end Braces

/-- The functions that are counted are the outermost ones that take in more lines than the limit. -/
theorem countLongBraceFunctions_eq_card (source : List Char) (hasSignature : List Char → Bool)
    (limit : ℤ) :
    countLongBraceFunctions source hasSignature limit =
      ((Finset.range (splitLines source).length).filter fun first =>
        IsOutermost (StartsBraces hasSignature (splitLines source))
          (BracesOpen (splitLines source)) first ∧
          limit < braceExtent (splitLines source) first).card := by
  have scan : BraceScan hasSignature limit (splitLines source) (splitLines source).length
      ((splitLines source).foldl (nextBraceLine hasSignature limit) ⟨none, 0⟩) :=
    foldl_lines_induction (BraceScan hasSignature limit (splitLines source)) (.outside (by simp))
      fun _ _ inText scan => scan.next inText
  exact scan.total (nested_braces hasSignature _) fun _ opened => braceExtent_of_isOpen opened

end Scorecard
