import Scorecard.Proofs.Analysis.Append

/-!
# A line feed at the end of the code

A text that ends with a line feed has one more line, and that line is empty. No occurrence uses the
line feed, since every pattern ends with another character, and an empty line opens and ends no
block. All that the empty line does is to lengthen the function that is open at the end of the text.
So exactly if that function has as many lines as a function may have, the line feed makes it a long
one.
-/

namespace Scorecard

theorem splitLines_append_newline (text : List Char) :
    splitLines (text ++ ['\n']) = splitLines text ++ [[]] :=
  splitLines_append_cons text []

namespace Pattern

variable {pattern : Pattern}

theorem length?_append_newline (ends : pattern.endsWithMark = true) (text : List Char) :
    pattern.length? (text ++ ['\n']) = pattern.length? text := by
  induction pattern with
  | nil => rfl
  | cons steps pattern ih =>
      rw [endsWithMark, List.all_cons, Bool.and_eq_true] at ends
      rw [length?, List.findSome?_cons, Step.length?_append_newline ends.1]
      split
      · next found => rw [length?, List.findSome?_cons, found]
      · next absent =>
          have others := ih ends.2
          rw [length?] at others
          rw [others, length?, length?, List.findSome?_cons, absent]

theorem length?_nil_of_endsWithMark (ends : pattern.endsWithMark = true) :
    pattern.length? [] = none := by
  rw [length?, List.findSome?_eq_none_iff]
  intro steps mem
  rcases Step.exists_of_endsWithMark (List.all_eq_true.mp ends steps mem) with
    ⟨init, accepts, rfl, _⟩
  by_contra some_match
  rcases Option.ne_none_iff_exists'.mp some_match with ⟨length, found⟩
  exact absurd (Step.length?_le found) (Nat.not_le.mpr (Step.length?_pos found))

theorem occurrencesAfter_append_newline (ends : pattern.endsWithMark = true) (skip : ℕ)
    (text : List Char) :
    pattern.occurrencesAfter skip (text ++ ['\n']) = pattern.occurrencesAfter skip text := by
  induction text generalizing skip with
  | nil =>
      cases skip with
      | succ skip => simp [occurrencesAfter]
      | zero =>
          have absent := length?_append_newline ends []
          rw [List.nil_append, length?_nil_of_endsWithMark ends] at absent
          simp [occurrencesAfter, absent]
  | cons c rest ih =>
      cases skip with
      | succ skip => exact ih skip
      | zero =>
          have same := length?_append_newline ends (c :: rest)
          rw [List.cons_append] at same ⊢
          rw [occurrencesAfter, occurrencesAfter, same]
          cases found : pattern.length? (c :: rest) with
          | none => exact ih 0
          | some length =>
              simp only
              rw [← List.cons_append, List.take_append_of_le_length (Pattern.length?_le found), ih]

theorem occurrences_append_newline (ends : pattern.endsWithMark = true) (text : List Char) :
    pattern.occurrences (text ++ ['\n']) = pattern.occurrences text :=
  occurrencesAfter_append_newline ends 0 text

theorem count_append_newline (ends : pattern.endsWithMark = true) (text : List Char) :
    pattern.count (text ++ ['\n']) = pattern.count text := by
  rw [count, count, occurrences_append_newline ends]

theorem matchesStart_append_newline (ends : pattern.endsWithMark = true) (text : List Char) :
    pattern.matchesStart (text ++ ['\n']) = pattern.matchesStart text := by
  rw [matchesStart, matchesStart, length?_append_newline ends]

theorem occursIn_nil (ends : pattern.endsWithMark = true) : pattern.occursIn [] = false := by
  rw [occursIn, matchesStart, length?_nil_of_endsWithMark ends]
  rfl

theorem occursIn_append_newline (ends : pattern.endsWithMark = true) (text : List Char) :
    pattern.occursIn (text ++ ['\n']) = pattern.occursIn text := by
  induction text with
  | nil =>
      have starts := matchesStart_append_newline ends []
      rw [List.nil_append] at starts
      simp [occursIn, starts]
  | cons c rest ih =>
      have starts := matchesStart_append_newline ends (c :: rest)
      rw [List.cons_append] at starts ⊢
      rw [occursIn, occursIn, starts, ih]

end Pattern

section Nesting

theorem BraceNesting.depth_le_deepest_next {state : BraceNesting} (le : state.depth ≤ state.deepest)
    (line : List Char) : (state.next line).depth ≤ (state.next line).deepest := by
  simp only [BraceNesting.next]
  split <;> split <;> omega

theorem BraceNesting.next_nil {state : BraceNesting} (le : state.depth ≤ state.deepest) :
    state.next [] = state := by
  have absent : braceLoop.occursIn [] = false := Pattern.occursIn_nil (by decide)
  simp [BraceNesting.next, absent, max_eq_left le]

theorem BraceNesting.depth_le_deepest (lines : List (List Char)) :
    (lines.foldl BraceNesting.next ⟨0, 0⟩).depth ≤ (lines.foldl BraceNesting.next ⟨0, 0⟩).deepest :=
  List.foldlRecOn lines BraceNesting.next (motive := fun state => state.depth ≤ state.deepest)
    le_rfl fun _ le line _ => BraceNesting.depth_le_deepest_next le line

theorem BlockLayout.nestingDepth_append_newline (layout : BlockLayout) (source : List Char) :
    layout.nestingDepth (source ++ ['\n']) = layout.nestingDepth source := by
  cases layout with
  | braces signature =>
      simp only [nestingDepth, braceNestingDepth, splitLines_append_newline, List.foldl_append]
      rw [List.foldl_cons, List.foldl_nil, BraceNesting.next_nil (BraceNesting.depth_le_deepest _)]
  | indentation =>
      simp only [nestingDepth, indentNestingDepth, splitLines_append_newline, List.foldl_append]
      rfl

end Nesting

section LongFunctions

namespace FunctionScan

variable {α : Type}

/-- The function that is open, if there is one, with one more line. -/
def grown (state : FunctionScan α) : FunctionScan α :=
  { state with current := state.current.map fun (span, mark) => (span + 1, mark) }

/-- The count of lines of the function that is open. -/
def openSpan? (state : FunctionScan α) : Option ℕ :=
  state.current.map (·.1)

/-- One more line makes the open function long if it has as many lines as it may have. -/
theorem total_grown (state : FunctionScan α) (limit : ℕ) :
    state.grown.total limit =
      state.total limit + if state.openSpan? = some limit then 1 else 0 := by
  rcases state with ⟨_ | ⟨span, mark⟩, long⟩
  · rfl
  · simp only [grown, openSpan?, total, Option.map_some, Option.some.injEq]
    split <;> split <;> split <;> omega

/-- The open function has braces to close. -/
def Unbalanced (state : FunctionScan ℤ) : Prop :=
  ∀ span balance, state.current = some (span, balance) → 0 < balance

theorem Unbalanced.next {signature : Pattern} {limit : ℤ} {state : FunctionScan ℤ}
    (unbalanced : state.Unbalanced) (line : List Char) :
    (nextBraceLine signature limit state line).Unbalanced := by
  rw [nextBraceLine]
  split
  · split
    · next opens =>
        rintro span balance ⟨⟩
        exact opens.2
    · exact unbalanced
  · simp only
    split
    · rintro span balance ⟨⟩
    · next more =>
        rintro span balance ⟨⟩
        exact Int.not_le.mp more

theorem unbalanced_foldl (signature : Pattern) (limit : ℤ) (lines : List (List Char)) :
    (lines.foldl (nextBraceLine signature limit) ⟨none, 0⟩).Unbalanced := by
  apply List.foldlRecOn lines
  · rintro span balance ⟨⟩
  · intro state unbalanced line _
    exact unbalanced.next line

theorem nextBraceLine_nil {signature : Pattern} (absent : signature.occursIn [] = false) (limit : ℤ)
    {state : FunctionScan ℤ} (unbalanced : state.Unbalanced) :
    nextBraceLine signature limit state [] = state.grown := by
  rcases state with ⟨_ | ⟨span, balance⟩, long⟩
  · simp [nextBraceLine, grown, absent]
  · have more : ¬balance ≤ 0 := Int.not_le.mpr (unbalanced span balance rfl)
    simp [nextBraceLine, grown, braceDelta, more]

theorem nextIndentLine_nil (limit : ℤ) (state : FunctionScan ℕ) :
    nextIndentLine limit state [] = state.grown := by
  have absent : indentDefinition.matchesStart [] = false := Pattern.occursIn_nil (by decide)
  rcases state with ⟨_ | ⟨span, indent⟩, long⟩
  · simp [nextIndentLine, grown, absent]
  · simp [nextIndentLine, grown, endsFunction, indentOf?]

end FunctionScan

namespace BlockLayout

/-- The count of lines of the function that is open at the end of a text. -/
def openSpan? (layout : BlockLayout) (source : List Char) (limit : ℤ) : Option ℕ :=
  match layout with
  | .braces signature =>
      ((splitLines source).foldl (nextBraceLine signature limit) ⟨none, 0⟩).openSpan?
  | .indentation => ((splitLines source).foldl (nextIndentLine limit) ⟨none, 0⟩).openSpan?

/-- Whether no signature occurs in an empty line. -/
def needsText : BlockLayout → Bool
  | .braces signature => signature.endsWithMark
  | .indentation => true

theorem countLongFunctions_append_newline {layout : BlockLayout} (needs : layout.needsText = true)
    (source : List Char) (limit : ℕ) :
    layout.countLongFunctions (source ++ ['\n']) limit =
      layout.countLongFunctions source limit +
        if layout.openSpan? source limit = some limit then 1 else 0 := by
  cases layout with
  | braces signature =>
      simp only [countLongFunctions, countLongBraceFunctions, openSpan?, splitLines_append_newline,
        List.foldl_append, List.foldl_cons, List.foldl_nil]
      rw [FunctionScan.nextBraceLine_nil (Pattern.occursIn_nil needs) limit
        (FunctionScan.unbalanced_foldl signature limit _)]
      exact FunctionScan.total_grown _ limit
  | indentation =>
      simp only [countLongFunctions, countLongIndentFunctions, openSpan?, splitLines_append_newline,
        List.foldl_append, List.foldl_cons, List.foldl_nil]
      rw [FunctionScan.nextIndentLine_nil]
      exact FunctionScan.total_grown _ limit

end BlockLayout

end LongFunctions

section Probes

theorem holdsInOrder_nil {tokens : List String}
    (needs : (Probe.ordered tokens).needsText = true) : holdsInOrder tokens [] = false := by
  cases tokens with
  | nil => cases needs
  | cons token tokens =>
      cases shape : token.toList with
      | nil => simp [Probe.needsText, shape] at needs
      | cons c rest => simp [holdsInOrder, shape, dropThrough?, dropStart?]

theorem Probe.fires_append_newline {probe : Probe} (needs : probe.needsText = true)
    (source : List Char) : probe.fires (source ++ ['\n']) = probe.fires source := by
  cases probe with
  | pattern shape => exact Pattern.occursIn_append_newline needs source
  | ordered tokens =>
      simp only [Probe.fires, orderedTokensFire, splitLines_append_newline, List.any_append,
        List.any_cons, List.any_nil, holdsInOrder_nil needs, Bool.or_false]

theorem countFiring_append_newline {probes : List Probe}
    (need : ∀ probe ∈ probes, probe.needsText = true) (source : List Char) :
    countFiring probes (source ++ ['\n']) = countFiring probes source :=
  countFiring_congr fun probe mem => Probe.fires_append_newline (need probe mem) source

end Probes

theorem countPoorNaming_append_newline (source : List Char) :
    countPoorNaming (source ++ ['\n']) = countPoorNaming source := by
  have overused : overusedNames (source ++ ['\n']) = overusedNames source := by
    apply List.filter_congr
    intro name mem
    rcases genericNames_oneLine name mem with ⟨oneLine, nonempty⟩
    rw [countWord_append_newline oneLine nonempty]
    rfl
  rw [countPoorNaming, countPoorNaming, overused,
    Pattern.occurrences_append_newline (by decide : singleLetterDeclaration.endsWithMark = true)]

theorem missingErrorHandling_append_newline {handling : ErrorHandling}
    (end_ : ∀ pattern ∈ handling.patterns, pattern.endsWithMark = true) (source : List Char) :
    missingErrorHandling (source ++ ['\n']) handling = missingErrorHandling source handling :=
  missingErrorHandling_congr fun pattern mem =>
    Pattern.count_append_newline (end_ pattern mem) source

namespace Family

theorem patterns_endWithMark (family : Family) :
    family.rules.consoleLog.endsWithMark = true ∧ family.rules.layout.needsText = true ∧
      ∀ pattern ∈ family.rules.errorHandling.patterns, pattern.endsWithMark = true := by
  cases family <;> decide

/-- A line feed at the end of the code changes nothing but the length of the function that is open
there: it makes that function a long one exactly if the function has as many lines as it may
have. -/
theorem analyze_append_newline (family : Family) (source : List Char) :
    family.rules.analyze (source ++ ['\n']) =
      { family.rules.analyze source with
        longFunctions := (family.rules.analyze source).longFunctions +
          if family.rules.layout.openSpan? source functionLineLimit = some 50 then 1 else 0 } := by
  rcases family.patterns_endWithMark with ⟨consoleLog, layout, handling⟩
  have longFunctions : family.rules.layout.countLongFunctions (source ++ ['\n']) functionLineLimit =
      family.rules.layout.countLongFunctions source functionLineLimit +
        if family.rules.layout.openSpan? source functionLineLimit = some 50 then 1 else 0 :=
    BlockLayout.countLongFunctions_append_newline layout source 50
  simp only [Rules.analyze, BlockLayout.nestingDepth_append_newline,
    Pattern.count_append_newline consoleLog, countPoorNaming_append_newline,
    countFiring_append_newline family.securityProbes_needText,
    missingErrorHandling_append_newline handling, Metrics.mk.injEq, and_true, true_and]
  rw [longFunctions]
  split <;> simp

end Family

/-- A function of as many lines as it may have, at the end of the code. -/
def fiftyLines : List Char :=
  "def f():\n".toList ++ (List.replicate 48 "    pass\n".toList).flatten ++ "    return 1".toList

/-- A line feed after fifty lines of a function makes it a long one. -/
theorem analyze_fiftyLines_newline :
    fiftyLines ≠ [] ∧ fiftyLines.getLast? ≠ some '\n' ∧
      (Family.python.rules.analyze fiftyLines).longFunctions = 0 ∧
      (Family.python.rules.analyze (fiftyLines ++ ['\n'])).longFunctions = 1 := by
  decide +kernel

end Scorecard
