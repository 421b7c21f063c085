import Scorecard.Analysis.Rules
import Scorecard.Proofs.Text.Lines
import Scorecard.Proofs.Text.Matching

/-!
# Counts and the size of the code

Every occurrence takes a character of its own and every loop a line of its own. Functions lie one
after the other, so the long ones and the open one take up no more lines than there are. No count is
much larger than the text: the number of probes and of generic words is all that comes on top.
-/

namespace Scorecard

/-- What grows by at most one with each item is bounded by the count of items. -/
theorem foldl_measure_le {σ β : Type} {next : σ → β → σ} (measure : σ → ℕ)
    (grows : ∀ state item, measure (next state item) ≤ measure state + 1) (items : List β)
    (state : σ) : measure (items.foldl next state) ≤ measure state + items.length := by
  induction items generalizing state with
  | nil => simp
  | cons item items ih =>
      have first := grows state item
      have rest := ih (next state item)
      rw [List.foldl_cons, List.length_cons]
      omega

theorem Pattern.length_occurrencesAfter_le (pattern : Pattern) (skip : ℕ) (text : List Char) :
    (pattern.occurrencesAfter skip text).length ≤ text.length := by
  induction text generalizing skip with
  | nil => cases skip <;> simp [occurrencesAfter]
  | cons c rest ih =>
      cases skip with
      | succ skip =>
          rw [occurrencesAfter, List.length_cons]
          exact (ih skip).trans (Nat.le_succ _)
      | zero =>
          rw [occurrencesAfter, List.length_cons]
          split
          · exact (ih 0).trans (Nat.le_succ _)
          · exact Nat.succ_le_succ (ih _)

theorem Pattern.length_occurrences_le (pattern : Pattern) (text : List Char) :
    (pattern.occurrences text).length ≤ text.length :=
  pattern.length_occurrencesAfter_le 0 text

theorem reportedDepth_le (depth : ℕ) : reportedDepth depth ≤ depth := by
  rw [reportedDepth]
  split <;> omega

/-- A depth that is reported has reached the threshold. -/
theorem reportedDepth_eq_zero_or_le (depth : ℕ) :
    reportedDepth depth = 0 ∨ 3 ≤ reportedDepth depth := by
  rw [reportedDepth]
  split
  · next reached => exact .inr reached
  · exact .inl rfl

theorem braceNestingDepth_le (source : List Char) :
    braceNestingDepth source ≤ (splitLines source).length := by
  have grows : ∀ (state : BraceNesting) line,
      max (state.next line).deepest (state.next line).depth ≤
        max state.deepest state.depth + 1 := by
    intro state line
    simp only [BraceNesting.next]
    split <;> split <;> omega
  have bound := foldl_measure_le (fun state : BraceNesting => max state.deepest state.depth) grows
    (splitLines source) ⟨0, 0⟩
  apply (reportedDepth_le _).trans
  simp only at bound
  omega

theorem indentNestingDepth_le (source : List Char) :
    indentNestingDepth source ≤ (splitLines source).length := by
  have grows : ∀ (state : IndentNesting) line,
      max (state.next line).deepest (state.next line).enclosing.length ≤
        max state.deepest state.enclosing.length + 1 := by
    intro state line
    rw [IndentNesting.next]
    split
    · omega
    · next indent _ =>
        have ended := (List.dropWhile_sublist (indent ≤ ·) (l := state.enclosing)).length_le
        split <;> simp only [List.length_cons] <;> omega
  have bound :=
    foldl_measure_le (fun state : IndentNesting => max state.deepest state.enclosing.length) grows
      (splitLines source) ⟨[], 0⟩
  apply (reportedDepth_le _).trans
  simp only [List.length_nil] at bound
  omega

namespace BlockLayout

theorem nestingDepth_le (layout : BlockLayout) (source : List Char) :
    layout.nestingDepth source ≤ (splitLines source).length := by
  cases layout with
  | braces signature => exact braceNestingDepth_le source
  | indentation => exact indentNestingDepth_le source

theorem nestingDepth_eq_zero_or_le (layout : BlockLayout) (source : List Char) :
    layout.nestingDepth source = 0 ∨ 3 ≤ layout.nestingDepth source := by
  cases layout with
  | braces signature => exact reportedDepth_eq_zero_or_le _
  | indentation => exact reportedDepth_eq_zero_or_le _

end BlockLayout

namespace FunctionScan

variable {α : Type} {limit : ℕ}

/-- The lines that functions take up at least: each long one more than the limit, the open one its
span. -/
def linesTaken (limit : ℕ) (state : FunctionScan α) : ℕ :=
  (limit + 1) * state.long + state.current.elim 0 (·.1)

/-- A function that becomes long has taken the lines that it then stands for. -/
theorem total_mul_le_linesTaken (limit : ℕ) (state : FunctionScan α) :
    (limit + 1) * state.total limit ≤ state.linesTaken limit := by
  rcases state with ⟨_ | ⟨span, mark⟩, long⟩
  · exact le_rfl
  · simp only [total, linesTaken, Option.elim_some, Nat.cast_lt]
    split
    · rw [Nat.mul_add, Nat.mul_one]
      omega
    · exact Nat.le_add_right _ _

theorem linesTaken_nextBraceLine (signature : Pattern) (state : FunctionScan ℤ) (line : List Char) :
    (nextBraceLine signature limit state line).linesTaken limit ≤ state.linesTaken limit + 1 := by
  rcases state with ⟨_ | ⟨span, balance⟩, long⟩
  · simp only [nextBraceLine]
    split
    · simp [linesTaken]
    · exact Nat.le_succ _
  · have ended := total_mul_le_linesTaken limit ⟨some (span + 1, balance + braceDelta line), long⟩
    simp only [nextBraceLine]
    split
    · simp only [linesTaken, Option.elim_some, Option.elim_none] at ended ⊢
      omega
    · simp only [linesTaken, Option.elim_some]
      omega

/-- The line that ends a function does not belong to it, and may start another one. -/
theorem linesTaken_nextIndentLine (state : FunctionScan ℕ) (line : List Char) :
    (nextIndentLine limit state line).linesTaken limit ≤ state.linesTaken limit + 1 := by
  have ended := total_mul_le_linesTaken limit state
  rcases state with ⟨_ | ⟨span, indent⟩, long⟩
  · simp only [nextIndentLine]
    split
    · simp [linesTaken]
    · exact Nat.le_succ _
  · simp only [nextIndentLine]
    split
    · split
      · simp only [linesTaken, Option.elim_some] at ended ⊢
        omega
      · simp only [linesTaken, Option.elim_some, Option.elim_none] at ended ⊢
        omega
    · simp only [linesTaken, Option.elim_some]
      omega

theorem total_foldl_mul_le {next : FunctionScan α → List Char → FunctionScan α}
    (grows : ∀ state line, (next state line).linesTaken limit ≤ state.linesTaken limit + 1)
    (lines : List (List Char)) :
    (limit + 1) * (lines.foldl next ⟨none, 0⟩).total limit ≤ lines.length := by
  have taken := foldl_measure_le (linesTaken limit) grows lines ⟨none, 0⟩
  have none_taken : linesTaken limit (⟨none, 0⟩ : FunctionScan α) = 0 := rfl
  have total := total_mul_le_linesTaken limit (lines.foldl next ⟨none, 0⟩)
  omega

end FunctionScan

/-- Long functions lie one after the other in the lines of the code. -/
theorem BlockLayout.countLongFunctions_mul_le (layout : BlockLayout) (source : List Char)
    (limit : ℕ) :
    (limit + 1) * layout.countLongFunctions source limit ≤ (splitLines source).length := by
  cases layout with
  | braces signature =>
      apply FunctionScan.total_foldl_mul_le
      exact FunctionScan.linesTaken_nextBraceLine signature
  | indentation =>
      apply FunctionScan.total_foldl_mul_le
      exact FunctionScan.linesTaken_nextIndentLine

theorem singleLetterDeclaration_closed : singleLetterDeclaration.ClosedBy '=' := by
  constructor
  · simp [singleLetterDeclaration, singleLetterRest]
  · decide

theorem countPoorNaming_le (source : List Char) :
    countPoorNaming source ≤ source.count '=' + 7 := by
  have declarations := (List.length_filter_le isPoorDeclaration _).trans
    (singleLetterDeclaration_closed.length_occurrences_le_count source)
  have words : (overusedNames source).length ≤ 7 := List.length_filter_le _ genericNames
  rw [countPoorNaming]
  omega

theorem missingErrorHandling_le (source : List Char) (handling : ErrorHandling) :
    missingErrorHandling source handling ≤ 1 := by
  rw [missingErrorHandling]
  split
  · exact Nat.zero_le 1
  · split
    · exact le_rfl
    · exact Nat.zero_le 1

namespace Metrics

/-- The counts are bounded by what there is to count: lines, signs of equality and probes. -/
structure Bounded (metrics : Metrics) (source : List Char) (probes : ℕ) : Prop where
  nestedLoops : metrics.nestedLoops = 0 ∨
    3 ≤ metrics.nestedLoops ∧ metrics.nestedLoops ≤ (splitLines source).length
  longFunctions : 51 * metrics.longFunctions ≤ (splitLines source).length
  securityRisks : metrics.securityRisks ≤ probes
  poorNaming : metrics.poorNaming ≤ 7 + source.count '='
  missingErrorHandling : metrics.missingErrorHandling = 0 ∨ metrics.missingErrorHandling = 1

end Metrics

namespace Rules

theorem analyze_bounded (rules : Rules) (source : List Char) :
    (rules.analyze source).Bounded source rules.securityProbes.length where
  nestedLoops := by
    have depth_le := rules.layout.nestingDepth_le source
    rcases rules.layout.nestingDepth_eq_zero_or_le source with none | some
    · exact .inl (Int.natCast_eq_zero.mpr none)
    · exact .inr ⟨Int.ofNat_le.mpr some, Int.ofNat_le.mpr depth_le⟩
  longFunctions := by
    have lines : 51 * rules.layout.countLongFunctions source functionLineLimit ≤
        (splitLines source).length := rules.layout.countLongFunctions_mul_le source 50
    simp only [analyze]
    omega
  securityRisks := Int.ofNat_le.mpr List.countP_le_length
  poorNaming := by
    have naming := countPoorNaming_le source
    simp only [analyze]
    omega
  missingErrorHandling := by
    have missing := missingErrorHandling_le source rules.errorHandling
    simp only [analyze]
    omega

/-- No count of a text is much larger than the text. -/
theorem analyze_le (rules : Rules) (source : List Char) {count : String × ℤ}
    (mem : count ∈ (rules.analyze source).named) :
    count.2 ≤ source.length + rules.securityProbes.length + 7 := by
  have bounded := rules.analyze_bounded source
  rcases bounded with ⟨nestedLoops, longFunctions, securityRisks, poorNaming, missing⟩
  have lines := length_splitLines_le source
  have signs := source.count_le_length (a := '=')
  have logs : (rules.analyze source).consoleLogs ≤ source.length :=
    Int.ofNat_le.mpr (rules.consoleLog.length_occurrences_le source)
  simp only [Metrics.named, List.mem_cons, List.not_mem_nil, or_false] at mem
  rcases mem with rfl | rfl | rfl | rfl | rfl | rfl <;> simp only <;> omega

end Rules

end Scorecard
