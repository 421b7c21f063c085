import Scorecard.Proofs.Analysis.LineByLine
import Scorecard.Proofs.Analysis.LineEnds

/-!
# The depth of nested loops in code with indentation

A loop encloses a later line if all lines from the loop to that line are indented deeper than the
loop, blank lines aside. The depth of a loop is one more than the count of loops around it. The
scanner has no positions: it keeps the indents of the loops that are still open and ends only those
at the top.

The invariant is that what it keeps are the indents of all open loops, the innermost first. An open
loop inside another one is indented deeper, so these indents fall from the innermost to the
outermost, and ending the loops at the top that are indented no less than a line is the same as
keeping all those that are indented less.
-/

namespace Scorecard

/-- A line that starts, stripped of its indent, with the word of a loop and a blank. -/
def IsLoopLine (line : List Char) : Prop :=
  ∃ word ∈ ["for", "while"], ∃ blank, isBlank blank = true ∧
    word.toList ++ [blank] <+: stripLeft line

theorem startsWithHead_iff (word : String) (line : List Char) :
    startsWithHead word line = true ↔
      ∃ blank, isBlank blank = true ∧ word.toList ++ [blank] <+: stripLeft line := by
  rw [startsWithHead, Option.any_eq_true, stripLeft]
  constructor
  · rintro ⟨after, dropped, starts⟩
    rw [dropStart?_eq_some_iff] at dropped
    cases after with
    | nil => cases starts
    | cons blank rest => exact ⟨blank, starts, rest, by simp [dropped]⟩
  · rintro ⟨blank, isBlank, rest, whole⟩
    refine ⟨blank :: rest, ?_, isBlank⟩
    rw [dropStart?_eq_some_iff, ← whole]
    simp

theorem indentLoop_matchesStart_iff (line : List Char) :
    indentLoop.matchesStart line = true ↔ IsLoopLine line := by
  rw [indentLoop_matchesStart, Bool.or_eq_true, startsWithHead_iff, startsWithHead_iff, IsLoopLine]
  simp

instance : DecidablePred IsLoopLine := fun line =>
  decidable_of_iff _ (indentLoop_matchesStart_iff line)

theorem IsLoopLine.not_isBlankLine {line : List Char} (loops : IsLoopLine line) :
    ¬ IsBlankLine line := by
  intro blankLine
  rcases loops with ⟨word, _, blank, _, starts⟩
  have empty : stripLeft line = [] := List.dropWhile_eq_nil_iff.mpr blankLine
  simp [empty] at starts

section Enclosing

variable (lines : List (List Char))

/-- Whether a line is a loop that encloses another one: all lines after the loop, the other one
included, are indented deeper than it or blank. -/
def Encloses (outer inner : ℕ) : Prop :=
  outer < inner ∧ IsLoopLine (lineAt lines outer) ∧
    ∀ between ∈ Finset.Ioc outer inner, ¬ IsBlankLine (lineAt lines between) →
      lineIndent (lineAt lines outer) < lineIndent (lineAt lines between)

instance : DecidableRel (Encloses lines) := fun _ _ =>
  inferInstanceAs (Decidable (_ ∧ _ ∧ _))

/-- Whether a loop is still open before a line: all lines in between are indented deeper or
blank. -/
def IsOpenAt (outer position : ℕ) : Prop :=
  IsLoopLine (lineAt lines outer) ∧
    ∀ between ∈ Finset.Ioo outer position, ¬ IsBlankLine (lineAt lines between) →
      lineIndent (lineAt lines outer) < lineIndent (lineAt lines between)

instance : DecidableRel (IsOpenAt lines) := fun _ _ =>
  inferInstanceAs (Decidable (_ ∧ _))

variable {lines} {outer position : ℕ}

theorem encloses_iff (before : outer < position) :
    Encloses lines outer position ↔ IsOpenAt lines outer (position + 1) := by
  rw [Encloses, IsOpenAt, Finset.Ioo_add_one_right_eq_Ioc, and_iff_right before]

theorem isOpenAt_self :
    IsOpenAt lines position (position + 1) ↔ IsLoopLine (lineAt lines position) := by
  simp [IsOpenAt, Finset.Ioo_add_one_right_eq_Ioc]

theorem isOpenAt_succ (before : outer < position) :
    IsOpenAt lines outer (position + 1) ↔ IsOpenAt lines outer position ∧
      (¬ IsBlankLine (lineAt lines position) →
        lineIndent (lineAt lines outer) < lineIndent (lineAt lines position)) := by
  rw [IsOpenAt, IsOpenAt, Finset.Ioo_add_one_right_eq_Ioc, ← Finset.Ioo_insert_right before,
    Finset.forall_mem_insert, and_assoc]
  exact and_congr_right fun _ => and_comm

variable (lines) in
/-- The loops that are open before a line, innermost first. -/
def openLoops (position : ℕ) : List ℕ :=
  (List.range position).reverse.filter (IsOpenAt lines · position)

theorem mem_openLoops :
    outer ∈ openLoops lines position ↔ outer < position ∧ IsOpenAt lines outer position := by
  simp [openLoops]

theorem openLoops_succ_eq_encloses : openLoops lines (position + 1) =
    (if IsLoopLine (lineAt lines position) then [position] else []) ++
      (List.range position).reverse.filter (Encloses lines · position) := by
  have around : (List.range position).reverse.filter (IsOpenAt lines · (position + 1)) =
      (List.range position).reverse.filter (Encloses lines · position) :=
    List.filter_congr fun outer mem => by
      rw [List.mem_reverse, List.mem_range] at mem
      exact decide_eq_decide.mpr (encloses_iff mem).symm
  rw [openLoops, List.range_succ, List.reverse_append, List.reverse_singleton,
    List.singleton_append, List.filter_cons, around]
  simp only [isOpenAt_self, decide_eq_true_eq]
  split <;> rfl

theorem openLoops_succ : openLoops lines (position + 1) =
    (if IsLoopLine (lineAt lines position) then [position] else []) ++
      (openLoops lines position).filter fun outer => ¬ IsBlankLine (lineAt lines position) →
        lineIndent (lineAt lines outer) < lineIndent (lineAt lines position) := by
  rw [openLoops_succ_eq_encloses, openLoops, List.filter_filter]
  refine congrArg _ (List.filter_congr fun outer mem => ?_)
  rw [List.mem_reverse, List.mem_range] at mem
  rw [← Bool.decide_and, decide_eq_decide, encloses_iff mem, isOpenAt_succ mem, and_comm]

theorem dropWhile_eq_filter_of_pairwise {indents : List ℕ} (falling : indents.Pairwise (· > ·))
    (bound : ℕ) : indents.dropWhile (bound ≤ ·) = indents.filter (· < bound) := by
  induction falling with
  | nil => rfl
  | @cons indent indents smaller _ ih =>
      by_cases deep : bound ≤ indent
      · simp [deep, ih]
      · have rest : ∀ other ∈ indent :: indents, decide (other < bound) = true := by
          intro other mem
          rcases List.mem_cons.mp mem with rfl | mem
          · simpa using deep
          · have := smaller other mem
            simp only [decide_eq_true_eq]
            omega
        rw [List.filter_eq_self.mpr rest, List.dropWhile_cons_of_neg (by simpa using deep)]

variable (lines) in
/-- The indents of the loops that are open before a line, innermost first. -/
def openIndents (position : ℕ) : List ℕ :=
  (openLoops lines position).map fun outer => lineIndent (lineAt lines outer)

/-- A loop inside another one is indented deeper. -/
theorem openIndents_pairwise : (openIndents lines position).Pairwise (· > ·) := by
  have later : (List.range position).reverse.Pairwise (· > ·) :=
    List.pairwise_reverse.mpr List.pairwise_lt_range
  refine List.pairwise_map.mpr
    ((later.filter _).imp_of_mem fun {inner outer} innerMem outerMem after => ?_)
  have innerOpen := mem_openLoops.mp innerMem
  have outerOpen := mem_openLoops.mp outerMem
  exact outerOpen.2.2 inner (Finset.mem_Ioo.mpr ⟨after, innerOpen.1⟩) innerOpen.2.1.not_isBlankLine

theorem openIndents_succ_of_blank (blankLine : IsBlankLine (lineAt lines position)) :
    openIndents lines (position + 1) = openIndents lines position := by
  have quiet : ¬ IsLoopLine (lineAt lines position) := fun loops => loops.not_isBlankLine blankLine
  simp [openIndents, openLoops_succ, quiet, blankLine]

theorem openIndents_succ (solid : ¬ IsBlankLine (lineAt lines position)) :
    openIndents lines (position + 1) =
      (if IsLoopLine (lineAt lines position) then [lineIndent (lineAt lines position)] else []) ++
        (openIndents lines position).dropWhile (lineIndent (lineAt lines position) ≤ ·) := by
  rw [dropWhile_eq_filter_of_pairwise openIndents_pairwise, openIndents, openLoops_succ,
    List.map_append, openIndents, List.filter_map]
  simp only [solid, not_false_eq_true, true_imp_iff]
  split <;> rfl

end Enclosing

section Depth

variable {lines : List (List Char)} {position : ℕ}

variable (lines) in
/-- The greatest depth of a loop among the first lines: one more than the count of loops around
it. -/
def loopDepth (count : ℕ) : ℕ :=
  ((Finset.range count).filter fun inner => IsLoopLine (lineAt lines inner)).sup fun inner =>
    1 + ((Finset.range inner).filter fun outer => Encloses lines outer inner).card

theorem length_openIndents_of_loop (loops : IsLoopLine (lineAt lines position)) :
    (openIndents lines (position + 1)).length =
      1 + ((Finset.range position).filter fun outer => Encloses lines outer position).card := by
  rw [openIndents, List.length_map, openLoops_succ_eq_encloses, if_pos loops, List.length_append,
    List.filter_reverse, List.length_reverse]
  rfl

theorem loopDepth_succ_of_loop (loops : IsLoopLine (lineAt lines position)) :
    loopDepth lines (position + 1) =
      max (loopDepth lines position) (openIndents lines (position + 1)).length := by
  rw [loopDepth, Finset.range_add_one, Finset.filter_insert, if_pos loops, Finset.sup_insert,
    length_openIndents_of_loop loops, loopDepth, max_comm]

theorem loopDepth_succ_of_not_loop (quiet : ¬ IsLoopLine (lineAt lines position)) :
    loopDepth lines (position + 1) = loopDepth lines position := by
  rw [loopDepth, Finset.range_add_one, Finset.filter_insert, if_neg quiet, loopDepth]

variable (lines) in
/-- The scan has the indents of the open loops and the depth of those that it has met. -/
structure IndentNesting.Tracks (position : ℕ) (state : IndentNesting) : Prop where
  enclosing : state.enclosing = openIndents lines position
  deepest : state.deepest = loopDepth lines position

theorem IndentNesting.Tracks.next {state : IndentNesting} (tracks : state.Tracks lines position) :
    (state.next (lineAt lines position)).Tracks lines (position + 1) := by
  by_cases blankLine : IsBlankLine (lineAt lines position)
  · have quiet : ¬ IsLoopLine (lineAt lines position) :=
      fun loops => loops.not_isBlankLine blankLine
    rw [IndentNesting.next, indentOf?_eq, if_pos blankLine]
    exact ⟨by rw [tracks.enclosing, openIndents_succ_of_blank blankLine],
      by rw [tracks.deepest, loopDepth_succ_of_not_loop quiet]⟩
  · have enclosing := openIndents_succ blankLine
    rw [IndentNesting.next, indentOf?_eq, if_neg blankLine]
    by_cases loops : IsLoopLine (lineAt lines position)
    · rw [if_pos loops, List.singleton_append, ← tracks.enclosing] at enclosing
      simp only [(indentLoop_matchesStart_iff _).mpr loops, if_true]
      refine ⟨enclosing.symm, ?_⟩
      rw [loopDepth_succ_of_loop loops, enclosing, List.length_cons, tracks.deepest]
    · rw [if_neg loops, List.nil_append, ← tracks.enclosing] at enclosing
      simp only [indentLoop_matchesStart_iff, loops, if_false]
      exact ⟨enclosing.symm, by rw [tracks.deepest, loopDepth_succ_of_not_loop loops]⟩

end Depth

/-- The depth that is reported is the greatest depth of a loop, if it reaches the threshold. -/
theorem indentNestingDepth_eq_loopDepth (source : List Char) :
    indentNestingDepth source =
      if 3 ≤ loopDepth (splitLines source) (splitLines source).length then
        loopDepth (splitLines source) (splitLines source).length
      else 0 := by
  have tracks : ((splitLines source).foldl IndentNesting.next ⟨[], 0⟩).Tracks (splitLines source)
      (splitLines source).length :=
    foldl_lines_induction (IndentNesting.Tracks (splitLines source)) ⟨rfl, rfl⟩ fun _ _ _ tracks =>
      tracks.next
  rw [indentNestingDepth, tracks.deepest, reportedDepth, nestingThreshold]

end Scorecard
