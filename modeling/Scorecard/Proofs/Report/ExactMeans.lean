import Scorecard.Proofs.Number.Fractions
import Scorecard.Proofs.Number.Order
import Scorecard.Proofs.Report.Ranking
import Scorecard.Proofs.Report.Summable

/-!
# Exact statistics of whole scores

The means of the statistics are floats, and most means of integers are none. If the scores are
integers, the rounding never shows: sums of so few so small integers are exact, a mean is rounded
once, and neither that nor the half that is added takes it to the other side of a half. The
improvement is rounded three times, but the difference of two means of three scores stays far from
every half.
-/

namespace Scorecard

namespace Number

/-- The integer part of the value. -/
def whole (number : Number) : ℤ :=
  number.exactValue / quantaInOne

/-- The number is worth the integer. -/
def IsWorth (number : Number) (whole : ℤ) : Prop :=
  number.quanta? = some (whole * quantaInOne)

/-- A score without a fraction, held as an integer or as a float. -/
def IsWholeScore (number : Number) : Prop :=
  number.IsScore ∧ (quantaInOne : ℤ) ∣ number.exactValue

instance (number : Number) : Decidable number.IsWholeScore :=
  inferInstanceAs (Decidable (_ ∧ _))

/-- The sum of the integer parts. -/
def wholeSum (numbers : List Number) : ℤ :=
  (numbers.map whole).sum

/-- The mean of integers, rounded with halves going up. -/
def exactMean (numbers : List Number) : ℤ :=
  (2 * wholeSum numbers + numbers.length).fdiv (2 * numbers.length)

theorem wholeSum_perm {numbers others : List Number} (perm : numbers.Perm others) :
    wholeSum numbers = wholeSum others :=
  (perm.map whole).sum_eq

theorem exactMean_perm {numbers others : List Number} (perm : numbers.Perm others) :
    exactMean numbers = exactMean others := by
  rw [exactMean, exactMean, wholeSum_perm perm, perm.length_eq]

theorem IsWholeScore.isWorth {number : Number} (isWhole : number.IsWholeScore) :
    number.IsWorth number.whole := by
  rw [IsWorth, whole, Int.ediv_mul_cancel isWhole.2]
  exact isWhole.1.worth

theorem IsWholeScore.abs_whole_le {number : Number} (isWhole : number.IsWholeScore) :
    |number.whole| ≤ (100 : ℕ) := by
  apply Within.int_le
  rw [whole, Int.ediv_mul_cancel isWhole.2]
  exact isWhole.1.within

section

variable {numbers : List Number} {wholes : List ℤ}

theorem exists_floats {bound : ℕ} (worth : List.Forall₂ IsWorth numbers wholes)
    (within : ∀ whole ∈ wholes, |whole| ≤ (bound : ℤ)) (small : bound ≤ 2 ^ 53) :
    ∃ floats, numbers.mapM toFloat = .ok floats ∧
      List.Forall₂ IsWorth (floats.map .float) wholes := by
  induction worth with
  | nil => exact ⟨[], rfl, .nil⟩
  | cons numberWorth _ ih =>
      rw [List.forall_mem_cons] at within
      rcases exists_toFloat numberWorth (.of_int within.1) small with ⟨float, taken, floatWorth⟩
      rcases ih within.2 with ⟨floats, allTaken, floatsWorth⟩
      refine ⟨float :: floats, ?_, .cons floatWorth floatsWorth⟩
      rw [List.mapM_cons, taken, ok_bind, allTaken]
      rfl

/-- The mean of small integers is their exact sum, divided and rounded once. -/
theorem exists_mean_wholes (worth : List.Forall₂ IsWorth numbers wholes)
    (within : ∀ whole ∈ wholes, |whole| ≤ (100 : ℕ)) (nonempty : numbers ≠ [])
    (few : numbers.length ≤ 2 ^ 40) :
    ∃ mean, Number.mean numbers = .ok mean ∧
      mean.quanta? = some (roundedValue (wholes.sum * quantaInOne) numbers.length) ∧
      Within (100 * numbers.length) (wholes.sum * quantaInOne) := by
  have length_eq := worth.length_eq
  have positive : 0 < numbers.length := List.length_pos_iff.mpr nonempty
  have small : wholes.length * 100 ≤ 2 ^ 53 := by omega
  have values : ∀ value ∈ wholes.map (· * (quantaInOne : ℤ)), Within 100 value := by
    intro value mem
    rcases List.mem_map.mp mem with ⟨whole, wholeMem, rfl⟩
    exact .of_int (within whole wholeMem)
  rcases exists_sum (List.forall₂_map_right_iff.mpr worth) values (by rwa [List.length_map]) with
    ⟨total, summed, totalWorth, totalWithin⟩
  rw [roundedSum_ints within small] at totalWorth totalWithin
  rw [List.length_map, ← length_eq, Nat.mul_comm] at totalWithin
  rcases exists_divBy totalWorth totalWithin (by omega) positive (by omega) with
    ⟨mean, divided, meanWorth⟩
  refine ⟨mean, ?_, meanWorth, totalWithin⟩
  rw [mean_of_ne_nil nonempty, summed]
  exact divided

end

variable {numbers : List Number} (isWhole : ∀ number ∈ numbers, number.IsWholeScore)
include isWhole

theorem forall₂_isWorth : List.Forall₂ IsWorth numbers (numbers.map whole) := by
  rw [List.forall₂_map_right_iff, List.forall₂_same]
  exact fun number mem => (isWhole number mem).isWorth

theorem abs_le_of_mem_wholes : ∀ value ∈ numbers.map whole, |value| ≤ (100 : ℕ) := by
  intro value mem
  rcases List.mem_map.mp mem with ⟨number, numberMem, rfl⟩
  exact (isWhole number numberMem).abs_whole_le

end Number

namespace Statistics

open Number (wholeSum exactMean)

theorem roundedMean_wholes {numbers : List Number}
    (isWhole : ∀ number ∈ numbers, number.IsWholeScore) (nonempty : numbers ≠ [])
    (few : numbers.length ≤ 2 ^ 40) : roundedMean numbers = .ok (exactMean numbers) := by
  have within := Number.abs_le_of_mem_wholes isWhole
  rcases Number.exists_floats (Number.forall₂_isWorth isWhole) within (by decide) with
    ⟨floats, taken, worth⟩
  have length_eq : (floats.map Number.float).length = numbers.length := by
    rw [worth.length_eq, List.length_map]
  have positive : 0 < numbers.length := List.length_pos_iff.mpr nonempty
  have floats_nonempty : floats.map Number.float ≠ [] :=
    List.length_pos_iff.mp (length_eq ▸ positive)
  rcases Number.exists_mean_wholes worth within floats_nonempty (by omega) with
    ⟨mean, averaged, meanWorth, total⟩
  rw [length_eq] at meanWorth total
  have rounded : Number.roundHalfUp (.float mean) = _ :=
    Number.roundHalfUp_eq meanWorth (total.rounded positive (by decide)) (by decide)
  have small : |(numbers.map Number.whole).sum| ≤ 1000 * (numbers.length : ℤ) :=
    total.int_le.trans (by omega)
  rw [roundedMean, taken, ok_bind, averaged, ok_bind, rounded,
    Number.halfUp_quotient positive few small]
  rfl

theorem breakdown_wholes {ranked : List ScoredEntry} (nonempty : ranked ≠ [])
    (few : ranked.length ≤ 2 ^ 40)
    (isWhole : ∀ entry ∈ ranked, ∀ skill ∈ skills, (skill.2 entry.scores).IsWholeScore) :
    breakdown ranked =
      .ok (skills.map fun skill => (skill.1, exactMean (column ranked skill))) := by
  have mean : ∀ skill ∈ skills, roundedMean (column ranked skill) =
      .ok (exactMean (column ranked skill)) := by
    intro skill skillMem
    apply roundedMean_wholes
    · intro number mem
      rcases List.mem_map.mp mem with ⟨entry, entryMem, rfl⟩
      exact isWhole entry entryMem skill skillMem
    · exact List.map_eq_nil_iff.not.mpr nonempty
    · rwa [column, List.length_map]
  change (skills.mapM fun skill => do return (skill.1, ← roundedMean (column ranked skill))) = _
  rw [mapM_eq_ok_iff, List.forall₂_map_right_iff, List.forall₂_same]
  intro skill skillMem
  rw [mean skill skillMem]
  rfl

/-- The mean of a window of three is their exact sum, divided and rounded once. -/
theorem exists_mean_window {window : List ScoredEntry} (three : window.length = 3)
    (isWhole : ∀ entry ∈ window, entry.devScore.IsWholeScore) :
    ∃ mean, Number.mean (window.map (·.devScore)) = .ok mean ∧
      mean.quanta? = some (roundedValue (wholeSum (window.map (·.devScore)) * quantaInOne) 3) ∧
      Within (100 * 3) (wholeSum (window.map (·.devScore)) * quantaInOne) := by
  have scores : ∀ number ∈ window.map (·.devScore), number.IsWholeScore :=
    List.forall_mem_map.mpr isWhole
  have scores_length : (window.map (·.devScore)).length = 3 := (List.length_map _).trans three
  have nonempty : window.map (·.devScore) ≠ [] := List.length_pos_iff.mp (by omega)
  have found :=
    Number.exists_mean_wholes (Number.forall₂_isWorth scores) (Number.abs_le_of_mem_wholes scores)
      nonempty (by omega)
  rwa [scores_length] at found

/-- The improvement of six or more entries, from the sums of two windows of three. -/
theorem improvementOf_wholes {ranked : List ScoredEntry} (many : 6 ≤ ranked.length)
    (isWhole : ∀ entry ∈ ranked, entry.devScore.IsWholeScore) :
    improvementOf ranked = .ok ((2 * (wholeSum ((ranked.take 3).map (·.devScore)) -
      wholeSum (((ranked.drop 3).take 3).map (·.devScore))) + 3).fdiv 6) := by
  have newest : (ranked.take 3).length = 3 := by
    rw [List.length_take]
    omega
  have before : ((ranked.drop 3).take 3).length = 3 := by
    rw [List.length_take, List.length_drop]
    omega
  rcases exists_mean_window newest fun entry mem => isWhole entry (List.mem_of_mem_take mem) with
    ⟨recent, recentMean, recentWorth, recentTotal⟩
  rcases exists_mean_window before fun entry mem =>
    isWhole entry (List.mem_of_mem_drop (List.mem_of_mem_take mem)) with
    ⟨previous, previousMean, previousWorth, previousTotal⟩
  have difference :=
    (recentTotal.rounded (by decide) (by decide)).sub
      (previousTotal.rounded (by decide) (by decide))
  have worth :=
    Binary64.quanta?_sub recentWorth previousWorth (difference.natAbs_lt_safeBound (by decide))
  have rounded : Number.roundHalfUp (.float (recent.sub previous)) = _ :=
    Number.roundHalfUp_eq worth (Within.rounded (by rwa [mul_one]) (by decide) (by decide))
      (by decide)
  rw [List.map_take] at recentMean
  rw [List.map_take, List.map_drop] at previousMean
  rw [improvementOf, if_neg (by rw [improvementWindow]; omega)]
  refine bind_eq_ok_iff.mpr ⟨recent, recentMean, bind_eq_ok_iff.mpr ⟨previous, previousMean, ?_⟩⟩
  rw [rounded, Number.halfUp_thirds]
  · exact recentTotal.int_le.trans (by decide)
  · exact previousTotal.int_le.trans (by decide)

theorem exists_improvementOf_wholes {ranked : List ScoredEntry}
    (isWhole : ∀ entry ∈ ranked, entry.devScore.IsWholeScore) :
    ∃ improvement, improvementOf ranked = .ok improvement ∧ (6 ≤ ranked.length →
      improvement = (2 * (wholeSum ((ranked.take 3).map (·.devScore)) -
        wholeSum (((ranked.drop 3).take 3).map (·.devScore))) + 3).fdiv 6) := by
  rcases Nat.lt_or_ge ranked.length 6 with fewer | many
  · refine ⟨0, ?_, fun many => absurd fewer (Nat.not_lt.mpr many)⟩
    exact if_pos fewer
  · exact ⟨_, improvementOf_wholes many isWhole, fun _ => rfl⟩

theorem exists_ofEntries {entries : List ScoredEntry} {scores : List (String × ℤ)}
    {average improvement : ℤ} (nonempty : newestFirst entries ≠ [])
    (broken : breakdown (newestFirst entries) = .ok scores)
    (averaged : roundedMean ((newestFirst entries).map (·.devScore)) = .ok average)
    (improved : improvementOf (newestFirst entries) = .ok improvement) :
    ∃ statistics, ofEntries entries = .ok statistics ∧ statistics.averageDevScore = average ∧
      statistics.scoreBreakdown = scores ∧ statistics.improvement = improvement := by
  rw [ofEntries]
  cases head : (newestFirst entries).head? with
  | none => exact absurd (List.head?_eq_none_iff.mp head) nonempty
  | some latest =>
      simp only [broken, averaged, improved, ok_bind]
      exact ⟨_, rfl, rfl, rfl, rfl⟩

/-- The statistics of whole scores are those of exact arithmetic: the average and the scores that
are broken down are exact means, rounded once, and the improvement is the difference of exact means
of three, rounded once. -/
theorem ofEntries_exact {entries : List ScoredEntry} (nonempty : entries ≠ [])
    (few : entries.length ≤ 2 ^ 40) (isWhole : ∀ entry ∈ entries, entry.devScore.IsWholeScore ∧
      ∀ skill ∈ skills, (skill.2 entry.scores).IsWholeScore)
    {ranked : List (ScoredEntry × ℕ)} (ranking : IsRanking entries ranked) :
    ∃ statistics, ofEntries entries = .ok statistics ∧
      statistics.averageDevScore = exactMean (entries.map (·.devScore)) ∧
      statistics.scoreBreakdown =
        skills.map (fun skill => (skill.1, exactMean (column entries skill))) ∧
      (6 ≤ entries.length → statistics.improvement =
        (2 * (wholeSum ((ranked.take 3).map (·.1.devScore)) -
          wholeSum (((ranked.drop 3).take 3).map (·.1.devScore))) + 3).fdiv 6) := by
  have perm := newestFirst_perm entries
  rw [← perm.length_eq] at few ⊢
  have ranks_nonempty : newestFirst entries ≠ [] :=
    fun empty => nonempty (List.perm_nil.mp (empty ▸ perm.symm))
  have scores :
      ∀ entry ∈ newestFirst entries, ∀ skill ∈ skills, (skill.2 entry.scores).IsWholeScore :=
    fun entry mem => (isWhole entry (perm.mem_iff.mp mem)).2
  have devScores : ∀ entry ∈ newestFirst entries, entry.devScore.IsWholeScore :=
    fun entry mem => (isWhole entry (perm.mem_iff.mp mem)).1
  have averaged := roundedMean_wholes (List.forall_mem_map.mpr devScores)
    (List.map_eq_nil_iff.not.mpr ranks_nonempty) (by rwa [List.length_map])
  rcases exists_improvementOf_wholes devScores with ⟨improvement, improved, improvement_eq⟩
  rcases exists_ofEntries ranks_nonempty (breakdown_wholes ranks_nonempty few scores) averaged
    improved with
    ⟨statistics, returned, average_eq, breakdown_eq, rfl⟩
  refine ⟨statistics, returned, average_eq.trans (Number.exactMean_perm (perm.map _)),
    breakdown_eq.trans ?_, ?_⟩
  · apply List.map_congr_left
    intro skill _
    rw [column, column, Number.exactMean_perm (perm.map fun entry => skill.2 entry.scores)]
  · intro many
    rw [improvement_eq many, ranking.newestFirst_eq]
    simp only [← List.map_take, ← List.map_drop, List.map_map, Function.comp_def]

/-- The three newest entries have the scores 20, 40 and 60, the three before them 10, 50 and 30. -/
theorem ofEntries_exact_tied :
    ∃ statistics, ofEntries tiedEntries = .ok statistics ∧ statistics.averageDevScore = 35 ∧
      statistics.scoreBreakdown = skills.map (fun skill => (skill.1, 50)) ∧
      statistics.improvement = 10 := by
  rcases ofEntries_exact (by decide) (by decide) (by decide +kernel) isRanking_tied with
    ⟨statistics, returned, average, breakdown, improvement⟩
  refine ⟨statistics, returned, average.trans ?_, breakdown.trans ?_,
    (improvement (by decide)).trans ?_⟩
  · decide +kernel
  · decide +kernel
  · decide +kernel

end Statistics

end Scorecard
