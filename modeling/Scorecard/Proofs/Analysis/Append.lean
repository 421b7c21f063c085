import Scorecard.Proofs.Analysis.Bounds
import Scorecard.Proofs.Scoring.Penalty
import Scorecard.Proofs.Text.Matching

/-!
# Text after the code

Code that is continued on a new line keeps its issues. The scanners that go line by line read the
lines of the first text before any other, and no line makes their result smaller: the depth is a
maximum, and a function that has become long stays counted, ended or not. What is searched for in
the whole text is still found, and its occurrences in the first text stay the first occurrences,
because a match that reaches over the line feed has no room for another one before it. Only the
guard of a risky operation can turn up in the second text and take a point off the penalty.
-/

namespace Scorecard

/-- What no item makes smaller, no list of items does. -/
theorem le_measure_foldl {σ β : Type} {next : σ → β → σ} (measure : σ → ℕ)
    (grows : ∀ state item, measure state ≤ measure (next state item)) (items : List β) (state : σ) :
    measure state ≤ measure (items.foldl next state) :=
  List.foldlRecOn items next (motive := fun reached => measure state ≤ measure reached) le_rfl
    fun reached le item _ => le.trans (grows reached item)

section Nesting

theorem reportedDepth_mono {depth deeper : ℕ} (le : depth ≤ deeper) :
    reportedDepth depth ≤ reportedDepth deeper := by
  simp only [reportedDepth]
  split <;> split <;> omega

theorem BraceNesting.deepest_le_next (state : BraceNesting) (line : List Char) :
    state.deepest ≤ (state.next line).deepest :=
  Nat.le_max_left _ _

theorem IndentNesting.deepest_le_next (state : IndentNesting) (line : List Char) :
    state.deepest ≤ (state.next line).deepest := by
  rw [IndentNesting.next]
  split
  · exact le_rfl
  · simp only
    split
    · exact Nat.le_max_left _ _
    · exact le_rfl

theorem BlockLayout.nestingDepth_append (layout : BlockLayout) (front back : List Char) :
    layout.nestingDepth front ≤ layout.nestingDepth (front ++ '\n' :: back) := by
  cases layout with
  | braces signature =>
      simp only [nestingDepth, braceNestingDepth, splitLines_append_cons, List.foldl_append]
      apply reportedDepth_mono
      exact le_measure_foldl BraceNesting.deepest BraceNesting.deepest_le_next _ _
  | indentation =>
      simp only [nestingDepth, indentNestingDepth, splitLines_append_cons, List.foldl_append]
      apply reportedDepth_mono
      exact le_measure_foldl IndentNesting.deepest IndentNesting.deepest_le_next _ _

end Nesting

section LongFunctions

namespace FunctionScan

variable {α : Type}

theorem long_le_total (state : FunctionScan α) (limit : ℤ) : state.long ≤ state.total limit := by
  rw [total]
  split
  · exact le_rfl
  · split <;> omega

/-- One more line of the function that is open does not take it out of the count. -/
theorem total_le_grown (span : ℕ) (mark mark' : α) (long : ℕ) (limit : ℤ) :
    total ⟨some (span, mark), long⟩ limit ≤ total ⟨some (span + 1, mark'), long⟩ limit := by
  simp only [total]
  split <;> split <;> omega

end FunctionScan

theorem total_le_nextBraceLine (signature : Pattern) (limit : ℤ) (state : FunctionScan ℤ)
    (line : List Char) :
    state.total limit ≤ (nextBraceLine signature limit state line).total limit := by
  rcases state with ⟨current, long⟩
  rw [nextBraceLine]
  cases current with
  | none =>
      simp only
      split
      · exact FunctionScan.long_le_total ⟨some (1, braceDelta line), long⟩ limit
      · exact le_rfl
  | some function =>
      have grown :=
        FunctionScan.total_le_grown function.1 function.2 (function.2 + braceDelta line) long limit
      simp only
      split
      · exact grown
      · exact grown

theorem total_le_nextIndentLine (limit : ℤ) (state : FunctionScan ℕ) (line : List Char) :
    state.total limit ≤ (nextIndentLine limit state line).total limit := by
  rcases state with ⟨current, long⟩
  cases current with
  | none =>
      simp only [nextIndentLine]
      split
      · exact FunctionScan.long_le_total ⟨some (1, (indentOf? line).getD 0), long⟩ limit
      · exact le_rfl
  | some function =>
      simp only [nextIndentLine]
      split
      · split
        · exact FunctionScan.long_le_total ⟨some (1, (indentOf? line).getD 0), _⟩ limit
        · exact le_rfl
      · exact FunctionScan.total_le_grown _ _ _ _ limit

theorem BlockLayout.countLongFunctions_append (layout : BlockLayout) (front back : List Char)
    (limit : ℤ) :
    layout.countLongFunctions front limit ≤
      layout.countLongFunctions (front ++ '\n' :: back) limit := by
  cases layout with
  | braces signature =>
      simp only [countLongFunctions, countLongBraceFunctions, splitLines_append_cons,
        List.foldl_append]
      exact le_measure_foldl (FunctionScan.total · limit)
        (total_le_nextBraceLine signature limit) _ _
  | indentation =>
      simp only [countLongFunctions, countLongIndentFunctions, splitLines_append_cons,
        List.foldl_append]
      exact le_measure_foldl (FunctionScan.total · limit) (total_le_nextIndentLine limit) _ _

end LongFunctions

section Probes

/-- Whether a probe looks for text: its pattern ends with a single character that is no line feed,
or the first of its texts is not empty. -/
def Probe.needsText : Probe → Bool
  | .pattern shape => shape.endsWithMark
  | .ordered tokens => tokens.head?.any fun token => !token.toList.isEmpty

theorem Probe.fires_append {probe : Probe} (needs : probe.needsText = true) {front : List Char}
    (fires : probe.fires front = true) (back : List Char) :
    probe.fires (front ++ '\n' :: back) = true := by
  cases probe with
  | pattern shape => exact Pattern.occursIn_append needs fires _
  | ordered tokens =>
      rw [Probe.fires, orderedTokensFire] at fires ⊢
      rw [splitLines_append_cons, List.any_append, fires, Bool.true_or]

theorem countFiring_congr {probes : List Probe} {left right : List Char}
    (same : ∀ probe ∈ probes, probe.fires left = probe.fires right) :
    countFiring probes left = countFiring probes right := by
  apply List.countP_congr
  intro probe mem
  rw [same probe mem]

theorem countFiring_append {probes : List Probe} (need : ∀ probe ∈ probes, probe.needsText = true)
    (front back : List Char) :
    countFiring probes front ≤ countFiring probes (front ++ '\n' :: back) := by
  apply List.countP_mono_left
  intro probe mem fires
  exact probe.fires_append (need probe mem) fires back

end Probes

/-- The patterns for guards and for what needs them. -/
def ErrorHandling.patterns (handling : ErrorHandling) : List Pattern :=
  [handling.tryBlock, handling.catchBlock, handling.riskyOperation]

theorem missingErrorHandling_congr {handling : ErrorHandling} {left right : List Char}
    (same : ∀ pattern ∈ handling.patterns, pattern.count left = pattern.count right) :
    missingErrorHandling left handling = missingErrorHandling right handling := by
  simp only [ErrorHandling.patterns, List.forall_mem_cons] at same
  rcases same with ⟨tryBlock, catchBlock, riskyOperation, _⟩
  simp only [missingErrorHandling, tryBlock, catchBlock, riskyOperation]

section Naming

theorem dropStart?_append_cons {word : List Char} {end_ : Char} (absent : end_ ∉ word)
    (front back : List Char) :
    dropStart? word (front ++ end_ :: back) = (dropStart? word front).map (· ++ end_ :: back) := by
  induction word generalizing front with
  | nil => rfl
  | cons expected word ih =>
      rw [List.mem_cons, not_or] at absent
      cases front with
      | nil => simp [dropStart?, Ne.symm absent.1]
      | cons c front =>
          rw [List.cons_append, dropStart?, dropStart?]
          split
          · exact ih absent.2 front
          · rfl

theorem startsWithWord_append_newline {word : List Char} (oneLine : '\n' ∉ word)
    (front back : List Char) :
    startsWithWord word (front ++ '\n' :: back) = startsWithWord word front := by
  rw [startsWithWord, startsWithWord, dropStart?_append_cons oneLine]
  cases dropStart? word front with
  | none => rfl
  | some after => cases after <;> rfl

theorem startsWithWord_nil {word : List Char} (nonempty : word ≠ []) :
    startsWithWord word [] = false := by
  cases word with
  | nil => exact absurd rfl nonempty
  | cons expected word => rfl

/-- A word of one line stands before or after a line feed, and a line feed is the end of a word. -/
theorem countWord_append_newline {word : List Char} (oneLine : '\n' ∉ word) (nonempty : word ≠ [])
    (afterWord : Bool) (front back : List Char) :
    countWord word afterWord (front ++ '\n' :: back) =
      countWord word afterWord front + countWord word false back := by
  induction front generalizing afterWord with
  | nil =>
      have starts := startsWithWord_append_newline oneLine [] back
      rw [List.nil_append, startsWithWord_nil nonempty] at starts
      have separate : isWord '\n' = false := by decide
      simp [countWord, starts, separate]
  | cons c front ih =>
      have starts := startsWithWord_append_newline oneLine (c :: front) back
      rw [List.cons_append] at starts ⊢
      rw [countWord, countWord, starts, ih, Nat.add_assoc]

theorem genericNames_oneLine : ∀ name ∈ genericNames, '\n' ∉ name.toList ∧ name.toList ≠ [] := by
  decide

theorem overusedNames_append (front back : List Char) :
    (overusedNames front).length ≤ (overusedNames (front ++ '\n' :: back)).length := by
  simp only [overusedNames, ← List.countP_eq_length_filter]
  apply List.countP_mono_left
  intro name mem overused
  rcases genericNames_oneLine name mem with ⟨oneLine, nonempty⟩
  rw [decide_eq_true_eq] at overused ⊢
  rw [countWord_append_newline oneLine nonempty]
  omega

theorem countPoorNaming_append (front back : List Char) :
    countPoorNaming front ≤ countPoorNaming (front ++ '\n' :: back) := by
  have declarations := singleLetterDeclaration_closed.occurrences_prefix front back
  have poor := (declarations.filter isPoorDeclaration).length_le
  have overused := overusedNames_append front back
  rw [countPoorNaming, countPoorNaming]
  omega

end Naming

namespace Family

theorem securityProbes_needText (family : Family) :
    ∀ probe ∈ family.rules.securityProbes, probe.needsText = true := by
  cases family <;> decide

theorem exists_consoleLog_closed (family : Family) :
    ∃ closing, family.rules.consoleLog.ClosedBy closing := by
  cases family with
  | js => exact ⟨'g', by simp [rules, Rules.js]; rfl, by decide⟩
  | python => exact ⟨'(', by simp [rules, Rules.python, call], by decide⟩
  | cpp => exact ⟨'<', by simp [rules, Rules.cpp]; rfl, by decide⟩

theorem count_consoleLog_append (family : Family) (front back : List Char) :
    family.rules.consoleLog.count front ≤
      family.rules.consoleLog.count (front ++ '\n' :: back) := by
  rcases family.exists_consoleLog_closed with ⟨closing, closed⟩
  exact (closed.occurrences_prefix front back).length_le

/-- Each count but the last is no smaller for the longer code, so the penalty is smaller by at most
the one point of the last count, and only if that count falls from one to zero. -/
theorem analyze_append (family : Family) (front back : List Char) :
    let before := family.rules.analyze front
    let after := family.rules.analyze (front ++ '\n' :: back)
    before.nestedLoops ≤ after.nestedLoops ∧ before.consoleLogs ≤ after.consoleLogs ∧
      before.longFunctions ≤ after.longFunctions ∧ before.securityRisks ≤ after.securityRisks ∧
      before.poorNaming ≤ after.poorNaming ∧ staticPenalty before - 1 ≤ staticPenalty after ∧
      (staticPenalty after < staticPenalty before →
        before.missingErrorHandling = 1 ∧ after.missingErrorHandling = 0) := by
  intro before after
  have nestedLoops : before.nestedLoops ≤ after.nestedLoops :=
    Int.ofNat_le.mpr (family.rules.layout.nestingDepth_append front back)
  have consoleLogs : before.consoleLogs ≤ after.consoleLogs :=
    Int.ofNat_le.mpr (family.count_consoleLog_append front back)
  have longFunctions : before.longFunctions ≤ after.longFunctions :=
    Int.ofNat_le.mpr (family.rules.layout.countLongFunctions_append front back _)
  have securityRisks : before.securityRisks ≤ after.securityRisks :=
    Int.ofNat_le.mpr (countFiring_append family.securityProbes_needText front back)
  have poorNaming : before.poorNaming ≤ after.poorNaming :=
    Int.ofNat_le.mpr (countPoorNaming_append front back)
  have rest : staticPenalty { before with missingErrorHandling := 0 } ≤
      staticPenalty { after with missingErrorHandling := 0 } :=
    staticPenalty_mono ⟨nestedLoops, consoleLogs, longFunctions, securityRisks, poorNaming, le_rfl⟩
  have before_eq := staticPenalty_eq_add before
  have after_eq := staticPenalty_eq_add after
  have before_missing : 0 ≤ before.missingErrorHandling ∧ before.missingErrorHandling ≤ 1 :=
    ⟨Int.natCast_nonneg _, Int.ofNat_le.mpr (missingErrorHandling_le front _)⟩
  have after_missing : 0 ≤ after.missingErrorHandling :=
    Int.natCast_nonneg _
  refine ⟨nestedLoops, consoleLogs, longFunctions, securityRisks, poorNaming, ?_⟩
  rw [before_eq, after_eq]
  split <;> split <;> omega

end Family

end Scorecard
