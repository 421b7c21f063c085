import Scorecard.Proofs.Analysis.FinalNewline
import Scorecard.Proofs.Analysis.LineByLine
import Scorecard.Proofs.Text.Spelling

/-!
# The depth of nested loops in code with braces

The scanner counts a level for each loop and takes one off for each line with a closing brace, but
never goes below zero. So the depth that it reports is not a balance of the whole text: a closing
brace that closes no loop is forgotten. It is the best balance that a window of lines has: of all
stretches of lines that end with a loop, the most loops less closing lines, where a closing brace in
the last line comes too late to count.

The invariant is that the depth before a line is the greatest balance of all stretches of lines that
end there, the empty one included. Forgetting a closing brace at depth zero is to go on with the
empty stretch.
-/

namespace Scorecard

/-- A line that holds the word of a loop, perhaps blanks, and a condition in parentheses. -/
def IsLoopHeader (line : List Char) : Prop :=
  ∃ word ∈ ["for", "while"], ∃ before pad condition after,
    line = before ++ (word.toList ++ (pad ++ '(' :: (condition ++ ')' :: after))) ∧
      (∀ c ∈ pad, isBlank c = true) ∧ ')' ∉ condition

/-- The head of a loop with the given word. -/
def loopHead (word : String) : List Step :=
  Step.literal word ++ [.run isBlank, .char '(', .run (· != ')'), .char ')']

theorem braceLoop_eq : braceLoop = ["for", "while"].map loopHead :=
  rfl

theorem braceLoop_definite : braceLoop.Definite := by
  intro steps mem
  rw [braceLoop_eq, List.mem_map] at mem
  rcases mem with ⟨word, -, rfl⟩
  simp only [loopHead, Step.definite_literal, Step.Definite, Step.char, Step.MayStart, and_true]
  constructor
  · intro c blank parenthesis
    rw [beq_iff_eq.mp parenthesis] at blank
    exact absurd blank (by decide)
  · intro c inside
    simpa using inside

theorem spells_loopHead {word : String} {text : List Char} :
    Step.Spells (loopHead word) text ↔ ∃ pad condition,
      text = word.toList ++ (pad ++ '(' :: (condition ++ [')'])) ∧
        (∀ c ∈ pad, isBlank c = true) ∧ ')' ∉ condition := by
  simp only [loopHead, Step.spells_literal, @Step.spells_run isBlank, Step.spells_run_ne,
    Step.spells_char, Step.spells_nil]
  constructor
  · rintro ⟨_, rfl, pad, _, rfl, blank, _, rfl, condition, _, rfl, inside, _, rfl, rfl⟩
    exact ⟨pad, condition, rfl, blank, inside⟩
  · rintro ⟨pad, condition, rfl, blank, inside⟩
    exact ⟨_, rfl, pad, _, rfl, blank, _, rfl, condition, _, rfl, inside, _, rfl, rfl⟩

theorem braceLoop_occursIn_iff (line : List Char) :
    braceLoop.occursIn line = true ↔ IsLoopHeader line := by
  rw [Pattern.occursIn_iff braceLoop_definite]
  constructor
  · rintro ⟨piece, ⟨before, after, rfl⟩, steps, mem, spelled⟩
    rw [braceLoop_eq, List.mem_map] at mem
    rcases mem with ⟨word, mem, rfl⟩
    rcases spells_loopHead.mp spelled with ⟨pad, condition, rfl, blank, inside⟩
    exact ⟨word, mem, before, pad, condition, after, by simp, blank, inside⟩
  · rintro ⟨word, mem, before, pad, condition, after, rfl, blank, inside⟩
    refine ⟨word.toList ++ (pad ++ '(' :: (condition ++ [')'])), ⟨before, after, by simp⟩,
      loopHead word, ?_, ?_⟩
    · exact List.mem_map_of_mem mem
    · exact spells_loopHead.mpr ⟨pad, condition, rfl, blank, inside⟩

instance : DecidablePred IsLoopHeader := fun line =>
  decidable_of_iff _ (braceLoop_occursIn_iff line)

section Windows

variable (lines : List (List Char))

/-- How many of the lines hold a loop. -/
def loopsAmong (positions : Finset ℕ) : ℕ :=
  (positions.filter fun position => IsLoopHeader (lineAt lines position)).card

/-- How many of the lines hold a closing brace. -/
def closingsAmong (positions : Finset ℕ) : ℕ :=
  (positions.filter fun position => '}' ∈ lineAt lines position).card

/-- The loops of a window less its closing lines before the last line. -/
def windowDepth (first last : ℕ) : ℤ :=
  loopsAmong lines (Finset.Icc first last) - closingsAmong lines (Finset.Ico first last)

/-- The windows among the first lines that end with a loop, each as its first and its last line. -/
def loopWindows (count : ℕ) : Finset (ℕ × ℕ) :=
  (Finset.range count ×ˢ Finset.range count).filter fun window =>
    window.1 ≤ window.2 ∧ IsLoopHeader (lineAt lines window.2)

/-- The greatest depth of a window among the first lines, or zero if none of them is a loop. -/
def deepestWindow (count : ℕ) : ℤ :=
  if loops : (loopWindows lines count).Nonempty then
    (loopWindows lines count).sup' loops fun window => windowDepth lines window.1 window.2
  else 0

/-- The loops of the lines from one line up to another less the closing lines. -/
def loopBalance (first position : ℕ) : ℤ :=
  loopsAmong lines (Finset.Ico first position) - closingsAmong lines (Finset.Ico first position)

/-- The balances of all stretches of lines that end before a line, the empty one included. -/
def balancesBefore (position : ℕ) : Set ℤ :=
  {balance | ∃ first ≤ position, loopBalance lines first position = balance}

/-- The depths of the windows among the first lines, and zero. -/
def windowDepths (count : ℕ) : Set ℤ :=
  insert 0 {depth | ∃ first last, (first, last) ∈ loopWindows lines count ∧
    windowDepth lines first last = depth}

/-- What a line adds to a balance. -/
def loopGain (line : List Char) : ℤ :=
  (if IsLoopHeader line then 1 else 0) - if '}' ∈ line then 1 else 0

variable {lines} {first last position : ℕ}

theorem card_filter_Icc {counted : ℕ → Prop} [DecidablePred counted] (ordered : first ≤ last) :
    ((Finset.Icc first last).filter counted).card =
      ((Finset.Ico first last).filter counted).card + if counted last then 1 else 0 := by
  rw [← Finset.Ico_insert_right ordered, Finset.filter_insert]
  split
  · rw [Finset.card_insert_of_notMem (by simp)]
  · rfl

theorem windowDepth_of_loop (ordered : first ≤ last) (loops : IsLoopHeader (lineAt lines last)) :
    windowDepth lines first last = loopBalance lines first last + 1 := by
  simp only [windowDepth, loopBalance, loopsAmong, card_filter_Icc ordered, if_pos loops]
  push_cast
  ring

theorem loopBalance_self : loopBalance lines position position = 0 := by
  simp [loopBalance, loopsAmong, closingsAmong]

theorem loopBalance_succ (ordered : first ≤ position) :
    loopBalance lines first (position + 1) =
      loopBalance lines first position + loopGain (lineAt lines position) := by
  simp only [loopBalance, loopGain, loopsAmong, closingsAmong, Finset.Ico_add_one_right_eq_Icc,
    card_filter_Icc ordered]
  push_cast
  ring

/-- One more line is added to every stretch, and a new one starts after it. -/
theorem balancesBefore_succ : balancesBefore lines (position + 1) =
    insert 0 ((· + loopGain (lineAt lines position)) '' balancesBefore lines position) := by
  ext balance
  constructor
  · rintro ⟨first, before, rfl⟩
    rcases Nat.le_succ_iff.mp before with earlier | rfl
    · exact Or.inr ⟨_, ⟨first, earlier, rfl⟩, (loopBalance_succ earlier).symm⟩
    · exact Or.inl loopBalance_self
  · rintro (rfl | ⟨_, ⟨first, earlier, rfl⟩, rfl⟩)
    · exact ⟨position + 1, le_rfl, loopBalance_self⟩
    · exact ⟨first, Nat.le_succ_of_le earlier, loopBalance_succ earlier⟩

theorem mem_loopWindows {count : ℕ} :
    (first, last) ∈ loopWindows lines count ↔
      first ≤ last ∧ last < count ∧ IsLoopHeader (lineAt lines last) := by
  simp only [loopWindows, Finset.mem_filter, Finset.mem_product, Finset.mem_range]
  constructor
  · rintro ⟨⟨-, inside⟩, ordered, loops⟩
    exact ⟨ordered, inside, loops⟩
  · rintro ⟨ordered, inside, loops⟩
    exact ⟨⟨lt_of_le_of_lt ordered inside, inside⟩, ordered, loops⟩

theorem mem_loopWindows_succ : (first, last) ∈ loopWindows lines (position + 1) ↔
    (first, last) ∈ loopWindows lines position ∨
      (last = position ∧ first ≤ position ∧ IsLoopHeader (lineAt lines position)) := by
  simp only [mem_loopWindows, Nat.lt_succ_iff_lt_or_eq]
  constructor
  · rintro ⟨ordered, before | rfl, loops⟩
    · exact Or.inl ⟨ordered, before, loops⟩
    · exact Or.inr ⟨rfl, ordered, loops⟩
  · rintro (⟨ordered, before, loops⟩ | ⟨rfl, ordered, loops⟩)
    · exact ⟨ordered, Or.inl before, loops⟩
    · exact ⟨ordered, Or.inr rfl, loops⟩

/-- A loop ends a window for every stretch of lines before it. -/
theorem windowDepths_succ_of_loop (loops : IsLoopHeader (lineAt lines position)) :
    windowDepths lines (position + 1) =
      windowDepths lines position ∪ (· + 1) '' balancesBefore lines position := by
  ext depth
  simp only [windowDepths, mem_loopWindows_succ, Set.mem_union, Set.mem_insert_iff]
  constructor
  · rintro (rfl | ⟨first, last, earlier | ⟨rfl, ordered, -⟩, rfl⟩)
    · exact Or.inl (Or.inl rfl)
    · exact Or.inl (Or.inr ⟨first, last, earlier, rfl⟩)
    · exact Or.inr ⟨_, ⟨first, ordered, rfl⟩, (windowDepth_of_loop ordered loops).symm⟩
  · rintro ((rfl | ⟨first, last, earlier, rfl⟩) | ⟨_, ⟨first, ordered, rfl⟩, rfl⟩)
    · exact Or.inl rfl
    · exact Or.inr ⟨first, last, Or.inl earlier, rfl⟩
    · exact Or.inr ⟨first, position, Or.inr ⟨rfl, ordered, loops⟩,
        windowDepth_of_loop ordered loops⟩

theorem windowDepths_succ_of_not_loop (quiet : ¬ IsLoopHeader (lineAt lines position)) :
    windowDepths lines (position + 1) = windowDepths lines position := by
  simp only [windowDepths, mem_loopWindows_succ, quiet, and_false, or_false]

/-- A window of nothing but a loop has depth one, so the zero is the greatest depth only if there is
no loop. -/
theorem isGreatest_deepestWindow (lines : List (List Char)) (count : ℕ) :
    IsGreatest (windowDepths lines count) (deepestWindow lines count) := by
  rw [deepestWindow]
  split
  case isTrue loops =>
    constructor
    · rcases Finset.exists_mem_eq_sup' loops fun window => windowDepth lines window.1 window.2 with
        ⟨⟨first, last⟩, mem, deepest⟩
      exact Or.inr ⟨first, last, mem, deepest.symm⟩
    · rintro depth (rfl | ⟨first, last, mem, rfl⟩)
      · rcases loops with ⟨⟨first, last⟩, mem⟩
        rcases mem_loopWindows.mp mem with ⟨-, inside, loops⟩
        apply (Finset.le_sup'_iff _).mpr
        refine ⟨(last, last), mem_loopWindows.mpr ⟨le_rfl, inside, loops⟩, ?_⟩
        rw [windowDepth_of_loop le_rfl loops, loopBalance_self]
        decide
      · exact (Finset.le_sup'_iff loops).mpr ⟨(first, last), mem, le_rfl⟩
  case isFalse none =>
    refine ⟨Or.inl rfl, ?_⟩
    rintro depth (rfl | ⟨first, last, mem, rfl⟩)
    · exact le_rfl
    · exact absurd ⟨_, mem⟩ none

theorem BraceNesting.depth_next (state : BraceNesting) (line : List Char) :
    ((state.next line).depth : ℤ) = max 0 ((state.depth : ℤ) + loopGain line) := by
  simp only [next, braceLoop_occursIn_iff, List.contains_iff_mem, loopGain]
  split <;> split <;> push_cast <;> omega

theorem BraceNesting.deepest_next {state : BraceNesting} (le : state.depth ≤ state.deepest)
    (line : List Char) :
    (state.next line).deepest =
      if IsLoopHeader line then max state.deepest (state.depth + 1) else state.deepest := by
  simp only [next, braceLoop_occursIn_iff]
  split
  · rfl
  · exact max_eq_left le

variable (lines) in
/-- The depth of the scan is the greatest balance of the lines up to a line, and the scan has met
the greatest depth of the windows before that line. -/
structure BraceNesting.Follows (position : ℕ) (state : BraceNesting) : Prop where
  depth_le_deepest : state.depth ≤ state.deepest
  depth : IsGreatest (balancesBefore lines position) state.depth
  deepest : IsGreatest (windowDepths lines position) state.deepest

namespace BraceNesting.Follows

theorem start : BraceNesting.Follows lines 0 ⟨0, 0⟩ where
  depth_le_deepest := le_rfl
  depth := by
    refine ⟨⟨0, le_rfl, loopBalance_self⟩, ?_⟩
    rintro balance ⟨first, before, rfl⟩
    rw [Nat.le_zero.mp before, loopBalance_self]
    rfl
  deepest := by simp [windowDepths, loopWindows]

variable {state : BraceNesting}

theorem next (follows : state.Follows lines position) :
    (state.next (lineAt lines position)).Follows lines (position + 1) where
  depth_le_deepest := BraceNesting.depth_le_deepest_next follows.depth_le_deepest _
  depth := by
    have grown :
        IsGreatest ((· + loopGain (lineAt lines position)) '' balancesBefore lines position)
          (state.depth + loopGain (lineAt lines position)) :=
      (add_left_mono : Monotone _).map_isGreatest follows.depth
    rw [BraceNesting.depth_next, balancesBefore_succ]
    exact grown.insert 0
  deepest := by
    rw [BraceNesting.deepest_next follows.depth_le_deepest]
    split
    case isTrue loops =>
      have ended : IsGreatest ((· + 1) '' balancesBefore lines position) ((state.depth : ℤ) + 1) :=
        (add_left_mono : Monotone _).map_isGreatest follows.depth
      rw [windowDepths_succ_of_loop loops]
      push_cast
      exact follows.deepest.union ended
    case isFalse quiet =>
      rw [windowDepths_succ_of_not_loop quiet]
      exact follows.deepest

end BraceNesting.Follows

end Windows

/-- The depth that is reported is the greatest depth of a window that ends with a loop, if it
reaches the threshold. -/
theorem braceNestingDepth_eq_deepestWindow (source : List Char) :
    (braceNestingDepth source : ℤ) =
      if 3 ≤ deepestWindow (splitLines source) (splitLines source).length then
        deepestWindow (splitLines source) (splitLines source).length
      else 0 := by
  have follows : ((splitLines source).foldl BraceNesting.next ⟨0, 0⟩).Follows (splitLines source)
      (splitLines source).length :=
    foldl_lines_induction (BraceNesting.Follows (splitLines source)) .start fun _ _ _ follows =>
      follows.next
  rw [← follows.deepest.unique (isGreatest_deepestWindow _ _), braceNestingDepth, reportedDepth,
    nestingThreshold]
  split <;> split <;> omega

end Scorecard
