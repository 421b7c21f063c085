import Mathlib
import Scorecard.Scoring

/-!
# Penalty points

Each rule asks whether one count has passed a threshold, so a rule that holds of some counts holds
of larger ones, and points are never negative. The penalty is the sum over a sublist of the rules:
it grows with the counts and lies between the sum over none of them and the sum over all.
-/

namespace Scorecard

/-- Each count of the first record is at most that count of the second. -/
structure Metrics.AtMost (metrics larger : Metrics) : Prop where
  nestedLoops : metrics.nestedLoops ≤ larger.nestedLoops
  consoleLogs : metrics.consoleLogs ≤ larger.consoleLogs
  longFunctions : metrics.longFunctions ≤ larger.longFunctions
  securityRisks : metrics.securityRisks ≤ larger.securityRisks
  poorNaming : metrics.poorNaming ≤ larger.poorNaming
  missingErrorHandling : metrics.missingErrorHandling ≤ larger.missingErrorHandling

theorem points_nonneg {rule : (Metrics → Bool) × Int} (mem : rule ∈ penaltyRules) : 0 ≤ rule.2 := by
  simp only [penaltyRules, List.mem_cons, List.not_mem_nil, or_false] at mem
  rcases mem with rfl | rfl | rfl | rfl | rfl | rfl <;> decide

theorem penaltyRule_mono {rule : (Metrics → Bool) × Int} (mem : rule ∈ penaltyRules)
    {metrics larger : Metrics} (atMost : metrics.AtMost larger) (holds : rule.1 metrics = true) :
    rule.1 larger = true := by
  obtain ⟨nestedLoops, consoleLogs, longFunctions, securityRisks, poorNaming, missing⟩ := atMost
  simp only [penaltyRules, List.mem_cons, List.not_mem_nil, or_false] at mem
  rcases mem with rfl | rfl | rfl | rfl | rfl | rfl <;> simp only [decide_eq_true_eq] at holds ⊢ <;>
    omega

/-- Leaving out rules gives no more points. -/
theorem sum_points_le {chosen rules : List ((Metrics → Bool) × Int)}
    (sublist : chosen.Sublist rules) (known : ∀ rule ∈ rules, rule ∈ penaltyRules) :
    (chosen.map (·.2)).sum ≤ (rules.map (·.2)).sum := by
  refine (sublist.map (·.2)).sum_le_sum ?_
  intro points mem
  obtain ⟨rule, ruleMem, rfl⟩ := List.mem_map.mp mem
  exact points_nonneg (known rule ruleMem)

theorem staticPenalty_nonneg (metrics : Metrics) : 0 ≤ staticPenalty metrics :=
  sum_points_le (List.nil_sublist _) fun _ mem => List.mem_of_mem_filter mem

theorem staticPenalty_le (metrics : Metrics) : staticPenalty metrics ≤ 10 :=
  sum_points_le List.filter_sublist fun _ mem => mem

/-- Lower counts give no more penalty points. -/
theorem staticPenalty_mono {metrics larger : Metrics} (atMost : metrics.AtMost larger) :
    staticPenalty metrics ≤ staticPenalty larger := by
  have also : penaltyRules.filter (fun rule => rule.1 metrics) =
      (penaltyRules.filter fun rule => rule.1 larger).filter fun rule => rule.1 metrics := by
    rw [List.filter_filter]
    apply List.filter_congr
    intro rule mem
    cases holds : rule.1 metrics with
    | false => simp
    | true => simp [penaltyRule_mono mem atMost holds]
  refine sum_points_le ?_ fun _ mem => List.mem_of_mem_filter mem
  rw [also]
  exact List.filter_sublist

/-- The last rule on its own: an unguarded operation gives one point. -/
theorem staticPenalty_eq_add (metrics : Metrics) :
    staticPenalty metrics = staticPenalty { metrics with missingErrorHandling := 0 } +
      if 0 < metrics.missingErrorHandling then 1 else 0 := by
  have others : penaltyRules.dropLast.filter (fun rule => rule.1 metrics) =
      penaltyRules.dropLast.filter fun rule =>
        rule.1 { metrics with missingErrorHandling := 0 } := rfl
  have last : penaltyRules = penaltyRules.dropLast ++
      [(fun metrics : Metrics => decide (0 < metrics.missingErrorHandling), 1)] := rfl
  simp only [staticPenalty]
  rw [last, List.filter_append, List.filter_append, ← others]
  by_cases missing : 0 < metrics.missingErrorHandling <;> simp [missing]

theorem appliedPoints_nonneg {penalty : Int} (nonneg : 0 ≤ penalty) :
    0 ≤ appliedPoints penalty := by
  simp only [appliedPoints]
  omega

theorem appliedPoints_le (penalty : Int) : appliedPoints penalty ≤ 10 := by
  simp only [appliedPoints]
  omega

theorem appliedPoints_mono {penalty larger : Int} (le : penalty ≤ larger) :
    appliedPoints penalty ≤ appliedPoints larger := by
  simp only [appliedPoints]
  omega

end Scorecard
