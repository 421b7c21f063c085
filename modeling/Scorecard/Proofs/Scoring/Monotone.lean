import Scorecard.Proofs.Number.Order
import Scorecard.Proofs.Scoring.Penalty

/-!
# Monotone scoring

The score of a piece of code is computed in steps: weighting, a sum, a division, a subtraction, a
rounding and two bounds. On scores in range each step returns, and what it returns is worth a
monotone function of the exact values of its arguments, because rounding to the nearest float is
monotone. The composition of these functions is `DevScore` as a function of exact values.
-/

namespace Scorecard

namespace Scores

/-- Every score is a finite number from zero to a hundred. -/
structure InRange (scores : Scores) : Prop where
  codeQuality : scores.codeQuality.IsScore
  timeComplexity : scores.timeComplexity.IsScore
  spaceComplexity : scores.spaceComplexity.IsScore
  security : scores.security.IsScore
  readability : scores.readability.IsScore

/-- Each score of the first record is at most that score of the second. -/
structure AtMost (scores better : Scores) : Prop where
  codeQuality : scores.codeQuality.AtMost better.codeQuality
  timeComplexity : scores.timeComplexity.AtMost better.timeComplexity
  spaceComplexity : scores.spaceComplexity.AtMost better.spaceComplexity
  security : scores.security.AtMost better.security
  readability : scores.readability.AtMost better.readability

/-- The exact values of the weighted scores, each rounded. -/
def partValues (scores : Scores) : List ℤ :=
  scores.weighted.map fun (score, weight) => roundedValue (score.exactValue * weight) 1

/-- The exact value of the weighted mean. -/
def baseValue (scores : Scores) : ℤ :=
  roundedValue (Number.roundedSum scores.partValues) 10

theorem InRange.weighted {scores : Scores} (inRange : scores.InRange) :
    ∀ part ∈ scores.weighted, part.1.IsScore ∧ 0 ≤ part.2 ∧ part.2 ≤ 3 := by
  obtain ⟨codeQuality, timeComplexity, spaceComplexity, security, readability⟩ := inRange
  simp [Scores.weighted, codeQuality, timeComplexity, spaceComplexity, security, readability]

/-- A score times its weight. -/
theorem exists_part {score : Number} {weight : ℤ} (isScore : score.IsScore) (nonneg : 0 ≤ weight)
    (weight_le : weight ≤ 3) :
    ∃ part, score.mul (.int weight) = .ok part ∧
      part.quanta? = some (roundedValue (score.exactValue * weight) 1) ∧
      Within 300 (roundedValue (score.exactValue * weight) 1) := by
  have weight_abs : |weight| ≤ (3 : ℕ) := by
    rw [abs_of_nonneg nonneg]
    exact_mod_cast weight_le
  obtain ⟨part, multiplied, worth⟩ := Number.exists_mul_int isScore.worth isScore.within
    (by decide) weight_abs (by decide) (by decide)
  refine ⟨part, multiplied, worth, ?_⟩
  exact Within.rounded (isScore.within.mul_int weight_abs) Nat.one_pos (by decide)

theorem exists_parts {entries : List (Number × ℤ)}
    (inRange : ∀ entry ∈ entries, entry.1.IsScore ∧ 0 ≤ entry.2 ∧ entry.2 ≤ 3) :
    ∃ parts, entries.mapM (fun (score, weight) => score.mul (.int weight)) = .ok parts ∧
      List.Forall₂ (fun part value => part.quanta? = some value) parts
        (entries.map fun (score, weight) => roundedValue (score.exactValue * weight) 1) := by
  induction entries with
  | nil => exact ⟨[], rfl, .nil⟩
  | cons entry entries restParts =>
      obtain ⟨score, weight⟩ := entry
      obtain ⟨isScore, nonneg, weight_le⟩ := inRange (score, weight) List.mem_cons_self
      obtain ⟨part, multiplied, worth, _⟩ := exists_part isScore nonneg weight_le
      obtain ⟨parts, restMultiplied, restWorth⟩ :=
        restParts fun other mem => inRange other (List.mem_cons_of_mem _ mem)
      refine ⟨part :: parts, ?_, .cons worth restWorth⟩
      rw [List.mapM_cons]
      change (score.mul (.int weight) >>= fun part => _) = _
      rw [multiplied, restMultiplied]
      rfl

/-- The weighted mean of scores in range is a finite float, worth the value of the base. -/
theorem exists_weightedBase {scores : Scores} (inRange : scores.InRange) :
    ∃ base, scores.weightedBase = .ok base ∧ base.quanta? = some scores.baseValue ∧
      Within 150 scores.baseValue := by
  obtain ⟨parts, multiplied, partsWorth⟩ := exists_parts inRange.weighted
  have partWithin : ∀ value ∈ scores.partValues, Within 300 value := by
    intro value mem
    obtain ⟨⟨score, weight⟩, entryMem, rfl⟩ := List.mem_map.mp mem
    obtain ⟨isScore, nonneg, weight_le⟩ := inRange.weighted _ entryMem
    obtain ⟨part, _, _, within⟩ := exists_part isScore nonneg weight_le
    exact within
  obtain ⟨total, summed, totalWorth, totalWithin⟩ :=
    Number.exists_sum partsWorth partWithin (by simp [Scores.weighted])
  obtain ⟨base, divided, baseWorth⟩ := Number.exists_divBy totalWorth totalWithin
    (by simp [Scores.weighted]) (show 0 < 10 by decide) (by decide)
  refine ⟨base, ?_, baseWorth, ?_⟩
  · rw [weightedBase, multiplied]
    change (Number.sum parts >>= fun total => total.divBy 10) = .ok base
    rw [summed]
    exact divided
  · refine Within.rounded (totalWithin.mono ?_) (by decide) (by decide)
    simp [Scores.weighted]

theorem partValues_mono {scores better : Scores} (atMost : scores.AtMost better) :
    List.Forall₂ (· ≤ ·) scores.partValues better.partValues := by
  have part_mono : ∀ {left right : Number} {weight : ℤ}, left.AtMost right → 0 ≤ weight →
      roundedValue (left.exactValue * weight) 1 ≤ roundedValue (right.exactValue * weight) 1 :=
    fun atMost nonneg => roundedValue_mono (mul_le_mul_of_nonneg_right atMost.value_le nonneg) 1
  simp only [partValues, Scores.weighted, List.map_cons, List.map_nil, List.forall₂_cons,
    List.Forall₂.nil, and_true]
  exact ⟨part_mono atMost.codeQuality (by decide), part_mono atMost.timeComplexity (by decide),
    part_mono atMost.security (by decide), part_mono atMost.readability (by decide),
    part_mono atMost.spaceComplexity (by decide)⟩

theorem baseValue_mono {scores better : Scores} (atMost : scores.AtMost better) :
    scores.baseValue ≤ better.baseValue :=
  roundedValue_mono (Number.roundedSum_mono (partValues_mono atMost)) 10

end Scores

/-- The exact value from which points are taken, rounded and held between the bounds. -/
def devScoreOf (baseValue penalty : ℤ) : ℤ :=
  max 0 (min 100 (Number.halfUp (roundedValue (baseValue - appliedPoints penalty * quantaInOne) 1)))

/-- The score of scores in range under a penalty that is not negative. -/
theorem devScore_eq {scores : Scores} (inRange : scores.InRange) {penalty : ℤ}
    (nonneg : 0 ≤ penalty) :
    devScore scores (.int penalty) = .ok (devScoreOf scores.baseValue penalty) := by
  obtain ⟨base, weighted, baseWorth, baseWithin⟩ := Scores.exists_weightedBase inRange
  have points_le : |appliedPoints penalty| ≤ (10 : ℕ) := by
    rw [abs_of_nonneg (appliedPoints_nonneg nonneg)]
    exact appliedPoints_le penalty
  have pointsWithin : Within 10 (appliedPoints penalty * quantaInOne) := .of_int points_le
  obtain ⟨difference, subtracted, worth⟩ := Number.exists_sub
    (show Number.quanta? (.float base) = _ from baseWorth)
    (show Number.quanta? (.int (appliedPoints penalty)) = _ from rfl) baseWithin pointsWithin
    (by decide)
  have within := Within.rounded (by rw [Nat.mul_one]; exact baseWithin.sub pointsWithin) Nat.one_pos
    (by decide)
  have rounded := Number.roundHalfUp_eq worth within (by decide)
  rw [devScore, weighted]
  change ((Number.float base).sub (.int (appliedPoints penalty)) >>= fun value => do
    return max 0 (min 100 (← Number.roundHalfUp value))) = _
  rw [subtracted]
  change (Number.roundHalfUp difference >>= fun whole => pure (max 0 (min 100 whole))) = _
  rw [rounded]
  rfl

theorem devScoreOf_nonneg (baseValue penalty : ℤ) : 0 ≤ devScoreOf baseValue penalty :=
  le_max_left _ _

theorem devScoreOf_le (baseValue penalty : ℤ) : devScoreOf baseValue penalty ≤ 100 :=
  max_le (by decide) (min_le_left _ _)

theorem devScoreOf_mono {baseValue better penalty lighter : ℤ} (base_le : baseValue ≤ better)
    (penalty_le : lighter ≤ penalty) :
    devScoreOf baseValue penalty ≤ devScoreOf better lighter := by
  have points_le := mul_le_mul_of_nonneg_right (appliedPoints_mono penalty_le)
    natCast_quantaInOne_pos.le
  have difference_le := roundedValue_mono (sub_le_sub base_le points_le) 1
  exact max_le_max le_rfl (min_le_min le_rfl (Number.halfUp_mono difference_le))

/-- On scores in range the breakdown returns, with the penalty of the counts and the score for
it. -/
theorem exists_scoreBreakdown {scores : Scores} (inRange : scores.InRange) (metrics : Metrics) :
    ∃ breakdown, scoreBreakdown scores metrics = .ok breakdown ∧
      breakdown.staticPenalty = staticPenalty metrics ∧
      breakdown.devScore = devScoreOf scores.baseValue (staticPenalty metrics) := by
  obtain ⟨base, weighted, _, _⟩ := Scores.exists_weightedBase inRange
  refine ⟨⟨base, staticPenalty metrics, appliedPoints (staticPenalty metrics),
    devScoreOf scores.baseValue (staticPenalty metrics)⟩, ?_, rfl, rfl⟩
  rw [scoreBreakdown, weighted, devScore_eq inRange (staticPenalty_nonneg metrics)]
  rfl

/-- Raising scores and lowering counts never lowers the score: both breakdowns return, the penalties
lie between zero and ten and the scores between zero and a hundred, in the expected orders. -/
theorem scoreBreakdown_mono {scores better : Scores} {metrics cleaner : Metrics}
    (inRange : scores.InRange) (betterInRange : better.InRange) (raised : scores.AtMost better)
    (lowered : cleaner.AtMost metrics) :
    ∃ breakdown betterBreakdown,
      scoreBreakdown scores metrics = .ok breakdown ∧
      scoreBreakdown better cleaner = .ok betterBreakdown ∧
      breakdown.staticPenalty = staticPenalty metrics ∧
      betterBreakdown.staticPenalty = staticPenalty cleaner ∧
      0 ≤ staticPenalty cleaner ∧ staticPenalty cleaner ≤ staticPenalty metrics ∧
      staticPenalty metrics ≤ 10 ∧
      devScore scores (.int (staticPenalty metrics)) = .ok breakdown.devScore ∧
      devScore better (.int (staticPenalty cleaner)) = .ok betterBreakdown.devScore ∧
      0 ≤ breakdown.devScore ∧ breakdown.devScore ≤ betterBreakdown.devScore ∧
      betterBreakdown.devScore ≤ 100 := by
  obtain ⟨breakdown, returned, penalty_eq, score_eq⟩ := exists_scoreBreakdown inRange metrics
  obtain ⟨betterBreakdown, betterReturned, betterPenalty_eq, betterScore_eq⟩ :=
    exists_scoreBreakdown betterInRange cleaner
  refine ⟨breakdown, betterBreakdown, returned, betterReturned, penalty_eq, betterPenalty_eq,
    staticPenalty_nonneg cleaner, staticPenalty_mono lowered, staticPenalty_le metrics, ?_, ?_, ?_⟩
  · rw [score_eq, devScore_eq inRange (staticPenalty_nonneg metrics)]
  · rw [betterScore_eq, devScore_eq betterInRange (staticPenalty_nonneg cleaner)]
  · rw [score_eq, betterScore_eq]
    exact ⟨devScoreOf_nonneg _ _,
      devScoreOf_mono (Scores.baseValue_mono raised) (staticPenalty_mono lowered),
      devScoreOf_le _ _⟩

/-- Two records that mix integers and floats. -/
theorem scoreBreakdown_mono_mixed :
    ∃ breakdown betterBreakdown,
      scoreBreakdown ⟨.int 60, .float (.ofInt 55), .int 0, .float .half, .int 99⟩
        { nestedLoops := 4, consoleLogs := 6 } = .ok breakdown ∧
      scoreBreakdown ⟨.float (.ofInt 61), .int 55, .float .half, .int 1, .int 100⟩
        { nestedLoops := -7, consoleLogs := 6 } = .ok betterBreakdown ∧
      breakdown.devScore ≤ betterBreakdown.devScore := by
  have inRange : Scores.InRange ⟨.int 60, .float (.ofInt 55), .int 0, .float .half, .int 99⟩ := by
    constructor <;> decide +kernel
  have betterInRange :
      Scores.InRange ⟨.float (.ofInt 61), .int 55, .float .half, .int 1, .int 100⟩ := by
    constructor <;> decide +kernel
  have raised : Scores.AtMost ⟨.int 60, .float (.ofInt 55), .int 0, .float .half, .int 99⟩
      ⟨.float (.ofInt 61), .int 55, .float .half, .int 1, .int 100⟩ := by
    constructor <;> decide +kernel
  have lowered : Metrics.AtMost { nestedLoops := -7, consoleLogs := 6 }
      { nestedLoops := 4, consoleLogs := 6 } := by
    constructor <;> decide
  obtain ⟨breakdown, betterBreakdown, returned, betterReturned, _, _, _, _, _, _, _, _, le, _⟩ :=
    scoreBreakdown_mono inRange betterInRange raised lowered
  exact ⟨breakdown, betterBreakdown, returned, betterReturned, le⟩

end Scorecard
