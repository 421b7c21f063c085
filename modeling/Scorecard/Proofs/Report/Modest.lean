import Scorecard.Proofs.Report.Origin

/-!
# The size of an assembled report

The integers of an assembled report are counts of what a machine can address, scores, penalties, and
rounded means of floats. All of them are in the range of the floats, so they have few digits.
-/

namespace Scorecard

/-- Two to this power is above every finite float. -/
def floatExponent : ℕ := 1024

/-- An integer in the range of the floats. -/
def Modest (value : ℤ) : Prop :=
  |value| ≤ 2 ^ floatExponent

theorem Modest.of_le {value : ℤ} (nonneg : 0 ≤ value) (le : value ≤ 2 ^ 64) : Modest value := by
  have room : (2 : ℤ) ^ 64 ≤ 2 ^ floatExponent := pow_le_pow_right₀ one_le_two (by decide)
  rw [Modest, abs_of_nonneg nonneg]
  exact le.trans room

theorem Modest.zero : Modest 0 :=
  Modest.of_le le_rfl (by positivity)

theorem Magnitude.quanta_le (magnitude : Magnitude) :
    magnitude.quanta ≤ 2 ^ floatExponent * quantaInOne := by
  have exponents : 53 + magnitude.shift ≤ floatExponent + quantaExponent := by
    have shift_le := magnitude.shift_le
    rw [quantaExponent_eq, floatExponent]
    omega
  calc magnitude.quanta ≤ 2 ^ 53 * 2 ^ magnitude.shift :=
        Nat.mul_le_mul_right _ magnitude.significand_lt.le
    _ = 2 ^ (53 + magnitude.shift) := (Nat.pow_add 2 53 magnitude.shift).symm
    _ ≤ 2 ^ (floatExponent + quantaExponent) := Nat.pow_le_pow_right Nat.two_pos exponents
    _ = 2 ^ floatExponent * quantaInOne := by rw [quantaInOne_eq, Nat.pow_add]

namespace Number

theorem modest_of_floor {value : Binary64} {whole : ℤ} (floored : floor value = .ok whole) :
    Modest whole := by
  cases value with
  | nan => cases floored
  | infinite negative => cases floored
  | finite negative magnitude =>
      cases floored
      have pos : (0 : ℤ) < quantaInOne := by exact_mod_cast quantaInOne_pos
      have quanta_le : (magnitude.quanta : ℤ) ≤ 2 ^ floatExponent * quantaInOne := by
        exact_mod_cast magnitude.quanta_le
      have signed_le : |magnitude.signed negative| ≤ 2 ^ floatExponent * quantaInOne := by
        cases negative <;> simpa [Magnitude.signed] using quanta_le
      rw [abs_le] at signed_le
      rw [Int.fdiv_eq_ediv_of_nonneg _ pos.le]
      have below : -(2 ^ floatExponent) ≤ magnitude.signed negative / quantaInOne := by
        rw [Int.le_ediv_iff_mul_le pos]
        linarith
      have above : magnitude.signed negative / quantaInOne ≤ 2 ^ floatExponent := by
        apply Int.ediv_le_of_le_mul pos
        linarith
      exact abs_le.mpr ⟨below, above⟩

theorem modest_of_roundHalfUp {value : Number} {whole : ℤ}
    (rounded : value.roundHalfUp = .ok whole) : Modest whole := by
  rcases bind_eq_ok_iff.mp rounded with ⟨float, _, floored⟩
  exact modest_of_floor floored

end Number

namespace Metrics

theorem zero_le {count : String × ℤ} (mem : count ∈ Metrics.zero.named) : count.2 ≤ 0 := by
  revert count
  decide

theorem toData_integers (metrics : Metrics) :
    metrics.toData.integers = metrics.named.map (·.2) := by
  simp [toData, Data.integers, Data.collect, Data.collectEntries, named, Scalar.integers]

end Metrics

namespace Scores

theorem mem_integers_toData {scores : Scores} {value : ℤ} (mem : value ∈ scores.toData.integers) :
    ∃ score ∈ scores.named, score.2 = .int value := by
  rw [toData, Data.integers, Data.collect, Data.mem_collectEntries] at mem
  rcases mem with ⟨entry, entryMem, mem⟩
  rcases List.mem_map.mp entryMem with ⟨⟨name, number⟩, numberMem, rfl⟩
  refine ⟨(name, number), numberMem, ?_⟩
  cases number with
  | int whole => simpa [Scalar.integers, Data.number, Data.collect, eq_comm] using mem
  | float float => simp [Scalar.integers, Data.number, Data.collect] at mem

theorem InRange.modest {scores : Scores} (inRange : scores.InRange) {value : ℤ}
    (mem : value ∈ scores.toData.integers) : Modest value := by
  rcases mem_integers_toData mem with ⟨score, scoreMem, score_eq⟩
  have isScore : score.2.IsScore := by
    rcases inRange with ⟨codeQuality, timeComplexity, spaceComplexity, security, readability⟩
    simp only [named, List.mem_cons, List.not_mem_nil, or_false] at scoreMem
    rcases scoreMem with rfl | rfl | rfl | rfl | rfl <;> assumption
  rw [score_eq] at isScore
  have nonneg := isScore.nonneg
  have within := isScore.within
  rw [Number.exactValue, Number.quanta?, Option.getD_some] at within nonneg
  have le := le_of_abs_le within.int_le
  exact Modest.of_le (nonneg_of_mul_nonneg_left nonneg natCast_quantaInOne_pos) (by omega)

end Scores

/-- The integers of a coherent result are modest if its code can be addressed. -/
theorem Coherent.modest {routes : Routes} {submission : Submission} {report : SubmissionReport}
    (coherent : Coherent routes submission report.result)
    (addressable : ∀ text, codeText submission.code = .ok text → text.length ≤ 2 ^ 63) {value : ℤ}
    (mem : value ∈ report.integers) : Modest value := by
  simp only [SubmissionReport.integers, Metrics.toData_integers, List.mem_append, List.mem_cons,
    List.not_mem_nil, or_false] at mem
  rcases mem with (counted | scored) | rfl | rfl
  · rcases List.mem_map.mp counted with ⟨count, countMem, rfl⟩
    rcases coherent.analysed with ⟨_, _, zero⟩ | ⟨family, _, text, _, read, _, analysed⟩
    · rw [zero] at countMem
      have le := Metrics.zero_le countMem
      exact Modest.of_le (Metrics.kept_zero.nonneg count countMem) (by omega)
    · rw [analysed] at countMem
      have nonneg := (Metrics.kept_analyze family.rules text).nonneg count countMem
      have le := family.rules.analyze_le text countMem
      have probes : family.rules.securityProbes.length ≤ 6 := by cases family <;> decide
      have length_le := addressable text read
      exact Modest.of_le nonneg (by omega)
  · exact coherent.scores.modest scored
  · have le := coherent.penalty_le
    exact Modest.of_le coherent.penalty_nonneg (by omega)
  · have le := coherent.devScore_le
    exact Modest.of_le coherent.devScore_nonneg (by omega)

namespace Statistics

theorem modest_of_roundedMean {numbers : List Number} {mean : ℤ}
    (returned : roundedMean numbers = .ok mean) : Modest mean := by
  rcases bind_eq_ok_iff.mp returned with ⟨floats, _, returned⟩
  rcases bind_eq_ok_iff.mp returned with ⟨float, _, rounded⟩
  exact Number.modest_of_roundHalfUp rounded

theorem modest_of_breakdown {entries : List ScoredEntry} {scores : List (String × ℤ)}
    (returned : breakdown entries = .ok scores) : ∀ score ∈ scores, Modest score.2 := by
  refine forall_of_forall₂ (mapM_eq_ok_iff.mp returned) ?_
  intro skill score each
  rcases bind_eq_ok_iff.mp each with ⟨mean, rounded, named⟩
  cases named
  exact modest_of_roundedMean rounded

theorem modest_of_improvementOf {ranked : List ScoredEntry} {improvement : ℤ}
    (returned : improvementOf ranked = .ok improvement) : Modest improvement := by
  rw [improvementOf] at returned
  split at returned
  · cases returned
    exact Modest.zero
  · rcases bind_eq_ok_iff.mp returned with ⟨_, _, returned⟩
    rcases bind_eq_ok_iff.mp returned with ⟨_, _, rounded⟩
    exact Number.modest_of_roundHalfUp rounded

theorem modest_of_trend {ranked : List ScoredEntry}
    (each : ∀ entry ∈ ranked, ∃ score, entry.devScore = .int score ∧ Modest score) :
    ∀ entries ∈ trend ranked, ∀ value ∈ (Data.mapping entries).integers, Modest value := by
  intro entries mem value valueMem
  rcases List.mem_map.mp mem with ⟨entry, entryMem, rfl⟩
  rcases each entry (List.mem_of_mem_take (List.mem_reverse.mp entryMem)) with
    ⟨score, score_eq, modest⟩
  simp only [score_eq, Data.integers, Data.collect, Data.collectEntries, Scalar.integers,
    Data.number, List.nil_append, List.append_nil, List.mem_singleton] at valueMem
  rw [valueMem]
  exact modest

theorem modest_toData {statistics : Statistics} (total : Modest statistics.totalSubmissions)
    (average : Modest statistics.averageDevScore)
    (latest : ∃ score, statistics.latestDevScore = .int score ∧ Modest score)
    (improvement : Modest statistics.improvement)
    (skills : ∀ score ∈ statistics.scoreBreakdown, Modest score.2)
    (trend : ∀ entries ∈ statistics.recentTrend, ∀ value ∈ (Data.mapping entries).integers,
      Modest value) :
    ∀ value ∈ statistics.toData.integers, Modest value := by
  rcases latest with ⟨score, score_eq, scoreModest⟩
  have weakest := optionalText_integers statistics.weakestSkill
  intro value mem
  rw [Data.integers] at weakest
  simp only [toData, Data.integers, Data.collect, Data.collectEntries, Scalar.integers, weakest,
    score_eq, Data.number, List.nil_append, List.append_nil, List.mem_append, List.mem_cons,
    List.not_mem_nil, or_false] at mem
  rcases mem with rfl | rfl | rfl | rfl | inSkills | inTrend
  · exact total
  · exact average
  · exact scoreModest
  · exact improvement
  · rcases Data.mem_collectEntries.mp inSkills with ⟨entry, entryMem, inEntry⟩
    rcases List.mem_map.mp entryMem with ⟨skill, skillMem, rfl⟩
    simp only [Data.collect, Scalar.integers, List.not_mem_nil, List.mem_singleton, false_or]
      at inEntry
    rw [inEntry]
    exact skills skill skillMem
  · rcases Data.mem_collectItems.mp inTrend with ⟨item, itemMem, inItem⟩
    rcases List.mem_map.mp itemMem with ⟨entries, entriesMem, rfl⟩
    exact trend entries entriesMem value inItem

/-- The integers of statistics are modest if the scores are and their number is. -/
theorem modest_of_ofEntries {entries : List ScoredEntry} {statistics : Statistics}
    (few : Modest entries.length)
    (each : ∀ entry ∈ entries, ∃ score, entry.devScore = .int score ∧ Modest score)
    (returned : ofEntries entries = .ok statistics) :
    ∀ value ∈ statistics.toData.integers, Modest value := by
  have ranked :
      ∀ entry ∈ newestFirst entries, ∃ score, entry.devScore = .int score ∧ Modest score :=
    fun entry mem => each entry (List.mem_mergeSort.mp mem)
  have length_eq : (newestFirst entries).length = entries.length := List.length_mergeSort _
  rw [ofEntries] at returned
  split at returned
  · cases returned
    exact modest_toData .zero .zero ⟨0, rfl, .zero⟩ .zero (by simp [empty]) (by simp [empty])
  · next latest latest_eq =>
      rcases bind_eq_ok_iff.mp returned with ⟨scores, broken, returned⟩
      rcases bind_eq_ok_iff.mp returned with ⟨average, averaged, returned⟩
      rcases bind_eq_ok_iff.mp returned with ⟨improvement, improved, returned⟩
      cases returned
      exact modest_toData (by rw [length_eq]; exact few) (modest_of_roundedMean averaged)
        (ranked latest (List.mem_of_mem_head? latest_eq)) (modest_of_improvementOf improved)
        (modest_of_breakdown broken) (modest_of_trend ranked)

end Statistics

theorem Modest.natAbs_lt {value : ℤ} (modest : Modest value) : value.natAbs < 10 ^ 4000 := by
  have room : 2 ^ floatExponent < 10 ^ 4000 := by decide +kernel
  have bound : value.natAbs ≤ 2 ^ floatExponent := by
    zify
    exact modest
  exact bound.trans_lt room

/-- The integers of an assembled report are short. -/
theorem Report.Assembled.short {report : Report} (assembled : report.Assembled) : report.Short := by
  rcases assembled.results with
    ⟨tree, evaluator, routes, submissions, journal, evaluated, addressable⟩
  have coherent := List.forall₂_map_right_iff.mp (forall₂_coherent evaluated)
  have each := (List.forall₂_and_left _ _).mpr ⟨addressable, coherent⟩
  intro value mem
  simp only [integers, List.mem_cons, List.mem_append, List.mem_flatMap, Option.mem_toList] at mem
  rcases mem with rfl | ⟨submission, submissionMem, mem⟩ | ⟨statistics, statisticsMem, mem⟩
  · exact assembled.version
  · have modest : ∀ scored ∈ report.submissions, ∀ value ∈ scored.integers, Modest value :=
      forall_of_forall₂ each fun submission scored both value mem => both.2.modest both.1 mem
    exact (modest submission submissionMem value mem).natAbs_lt
  · have scores : ∀ scored ∈ report.submissions, Modest scored.result.devScore :=
      forall_of_forall₂ coherent fun submission scored coherent =>
        Modest.of_le coherent.devScore_nonneg (coherent.devScore_le.trans (by norm_num))
    have few : Modest (report.submissions.map (·.entry)).length := by
      rw [List.length_map]
      have few := assembled.few
      exact Modest.of_le (Int.natCast_nonneg _) (by omega)
    have returned := assembled.statistics statistics statisticsMem
    have modest := Statistics.modest_of_ofEntries few (by
      intro entry entryMem
      rcases List.mem_map.mp entryMem with ⟨submission, submissionMem, rfl⟩
      exact ⟨_, rfl, scores submission submissionMem⟩) returned
    exact (modest value mem).natAbs_lt

end Scorecard
