import Scorecard.Proofs.Analysis.Bounds
import Scorecard.Proofs.Evaluation.Coherence
import Scorecard.Proofs.Report.Integers
import Scorecard.Report.Statistics

/-!
# Where reports come from

A report is assembled from the results of submissions, with the statistics of these results or
without any, or it is restored from a text. Either way its document is kept by the reader: the
pipeline gives counts and scores in the ranges to which the reader holds them, and what the reader
gives once it gives again.
-/

namespace Scorecard

/-- The results are those of evaluated submissions under any labels and times, and the statistics,
if there are any, are those of the results. The version is short, and neither the list of results
nor any code is longer than what a machine can address. -/
structure Report.Assembled (report : Report) : Prop where
  results : ∃ tree evaluator routes submissions journal,
    ((evaluateAll tree evaluator routes submissions).runOn journal).1 =
      .ok (report.submissions.map (·.result)) ∧
    ∀ submission ∈ submissions, ∀ text, codeText submission.code = .ok text → text.length ≤ 2 ^ 63
  few : report.submissions.length ≤ 2 ^ 63
  version : report.schemaVersion.natAbs < 10 ^ 4000
  statistics : ∀ statistics ∈ report.statistics,
    Statistics.ofReports report.submissions = .ok statistics

namespace Metrics

theorem kept_zero : Metrics.zero.Kept where
  nonneg := by decide
  missing_le := by decide

/-- What the rules count is never negative, and guards are missing or not. -/
theorem kept_analyze (rules : Rules) (source : List Char) : (rules.analyze source).Kept where
  nonneg := by simp [named, Rules.analyze]
  missing_le := Int.ofNat_le.mpr (missingErrorHandling_le source rules.errorHandling)

end Metrics

theorem Scores.InRange.kept {scores : Scores} (inRange : scores.InRange) : scores.Kept := by
  rcases inRange with ⟨codeQuality, timeComplexity, spaceComplexity, security, readability⟩
  simp [Scores.Kept, Scores.named, Number.kept_of_isScore, *]

/-- A coherent result is kept under any label and time. -/
theorem Coherent.kept {routes : Routes} {submission : Submission} {report : SubmissionReport}
    (coherent : Coherent routes submission report.result) : report.Kept where
  metrics := by
    rcases coherent.analysed with ⟨_, _, zero⟩ | ⟨family, _, text, _, _, _, analysed⟩
    · rw [zero]
      exact Metrics.kept_zero
    · rw [analysed]
      exact Metrics.kept_analyze family.rules text
  scores := coherent.scores.kept
  base := by
    rcases Scores.exists_weightedBase coherent.scores with ⟨base, based, _⟩
    exact ⟨base, based⟩

namespace Statistics

/-- The rounded scores have the names of the scores. -/
theorem map_fst_breakdown {entries : List ScoredEntry} {scores : List (String × ℤ)}
    (returned : breakdown entries = .ok scores) :
    scores.map (·.1) =
      ["codeQuality", "timeComplexity", "spaceComplexity", "security", "readability"] := by
  refine (map_eq_of_mapM returned ?_).symm.trans (rfl : List.map Prod.fst _ = _)
  intro skill _ result each
  rcases bind_eq_ok_iff.mp each with ⟨mean, _, named⟩
  cases named
  rfl

theorem kept_empty : empty.Kept where
  latest := ⟨0, rfl⟩
  skills := List.nodup_nil
  trend := by simp [empty]

/-- Statistics of whole scores are kept. -/
theorem kept_of_ofEntries {entries : List ScoredEntry} {statistics : Statistics}
    (whole : ∀ entry ∈ entries, ∃ score, entry.devScore = .int score)
    (returned : ofEntries entries = .ok statistics) : statistics.Kept := by
  have ranked_whole : ∀ entry ∈ newestFirst entries, ∃ score, entry.devScore = .int score :=
    fun entry mem => whole entry (List.mem_mergeSort.mp mem)
  rw [ofEntries] at returned
  split at returned
  · cases returned
    exact kept_empty
  · next latest latest_eq =>
      rcases bind_eq_ok_iff.mp returned with ⟨scores, broken, returned⟩
      rcases bind_eq_ok_iff.mp returned with ⟨average, _, returned⟩
      rcases bind_eq_ok_iff.mp returned with ⟨improvement, _, returned⟩
      cases returned
      refine ⟨ranked_whole latest (List.mem_of_mem_head? latest_eq), ?_, ?_⟩
      · rw [map_fst_breakdown broken]
        decide
      · intro trendEntries mem
        rcases List.mem_map.mp mem with ⟨entry, entryMem, rfl⟩
        rcases ranked_whole entry (List.mem_of_mem_take (List.mem_reverse.mp entryMem)) with
          ⟨score, score_eq⟩
        rw [score_eq]
        refine ⟨.mapping ⟨by simp, by simp⟩ (by simp [Data.number]), ?_⟩
        simp [Data.floats, Data.collect, Data.collectEntries, Scalar.floats, Data.number]

end Statistics

/-- An assembled report is kept. -/
theorem Report.Assembled.kept {report : Report} (assembled : report.Assembled) : report.Kept where
  submissions := by
    rcases assembled.results with ⟨tree, evaluator, routes, submissions, journal, evaluated, _⟩
    have each := List.forall₂_map_right_iff.mp (forall₂_coherent evaluated)
    exact forall_of_forall₂ each fun submission report coherent => coherent.kept
  statistics := by
    intro statistics mem
    apply Statistics.kept_of_ofEntries _ (assembled.statistics statistics mem)
    intro entry entryMem
    rcases List.mem_map.mp entryMem with ⟨submission, _, rfl⟩
    exact ⟨_, rfl⟩

/-- The report was read from a text, neither its scores nor its trend hold what is not a number, and
its integers are short. -/
structure Report.Restored (report : Report) : Prop where
  read : ∃ text, Report.decode text = .ok report
  scores : ∀ submission ∈ report.submissions, ∀ score ∈ submission.result.scores.named,
    score.2 ≠ .float .nan
  trend : ∀ statistics ∈ report.statistics, ∀ entries ∈ statistics.recentTrend,
    .nan ∉ (Data.mapping entries).floats
  short : report.Short

namespace Metrics

theorem exists_countIn {entries : Entries} {wireName plainName : String} {count : ℤ}
    (returned : countIn entries wireName plainName = .ok count) : 0 ≤ count := by
  rcases bind_eq_ok_iff.mp returned with ⟨value, _, held⟩
  cases held
  exact le_max_left _ _

/-- The counts that the reader gives are those that it keeps. -/
theorem kept_of_ofData {data : Data} {metrics : Metrics} (returned : ofData data = .ok metrics) :
    metrics.Kept := by
  rw [ofData.eq_def] at returned
  split at returned
  · rcases bind_eq_ok_iff.mp returned with ⟨nestedLoops, nested, returned⟩
    rcases bind_eq_ok_iff.mp returned with ⟨consoleLogs, logs, returned⟩
    rcases bind_eq_ok_iff.mp returned with ⟨longFunctions, long, returned⟩
    rcases bind_eq_ok_iff.mp returned with ⟨securityRisks, risks, returned⟩
    rcases bind_eq_ok_iff.mp returned with ⟨poorNaming, naming, returned⟩
    rcases bind_eq_ok_iff.mp returned with ⟨missing, handling, returned⟩
    cases returned
    constructor
    · simp [named, exists_countIn nested, exists_countIn logs, exists_countIn long,
        exists_countIn risks, exists_countIn naming, exists_countIn handling]
    · exact min_le_left _ _
  · cases returned
    exact kept_zero

end Metrics

namespace Report

theorem exists_float_of_scoreIn {entries : Entries} {key : String} {score : Number}
    (returned : scoreIn entries key = .ok score) : ∃ value, score = .float value := by
  rcases bind_eq_ok_iff.mp returned with ⟨value, _, given⟩
  cases given
  exact ⟨_, rfl⟩

/-- The scores that the reader gives are floats. -/
theorem exists_floats_of_scoresOf {data : Data} {scores : Scores}
    (returned : scoresOf data = .ok scores) :
    ∀ score ∈ scores.named, ∃ value, score.2 = .float value := by
  rcases bind_eq_ok_iff.mp returned with ⟨codeQuality, quality, returned⟩
  rcases bind_eq_ok_iff.mp returned with ⟨timeComplexity, time, returned⟩
  rcases bind_eq_ok_iff.mp returned with ⟨spaceComplexity, space, returned⟩
  rcases bind_eq_ok_iff.mp returned with ⟨security, safety, returned⟩
  rcases bind_eq_ok_iff.mp returned with ⟨readability, clarity, returned⟩
  cases returned
  simp [Scores.named, exists_float_of_scoreIn quality, exists_float_of_scoreIn time,
    exists_float_of_scoreIn space, exists_float_of_scoreIn safety, exists_float_of_scoreIn clarity]

end Report

/-- The weighted mean of floats is always there. -/
theorem Scores.exists_weightedBase_of_floats {scores : Scores}
    (floats : ∀ score ∈ scores.named, ∃ value, score.2 = .float value) :
    ∃ base, scores.weightedBase = .ok base := by
  simp only [named, List.forall_mem_cons] at floats
  rcases scores with ⟨codeQuality, timeComplexity, spaceComplexity, security, readability⟩
  rcases floats with ⟨⟨quality, rfl⟩, ⟨time, rfl⟩, ⟨space, rfl⟩, ⟨safety, rfl⟩, ⟨clarity, rfl⟩, _⟩
  have small : ∀ whole ∈ [0, 1, 2, 3, 10], Number.floatOfInt whole = .ok (.ofInt whole) := by
    decide +kernel
  simp only [weightedBase, weighted, List.mapM_cons, List.mapM_nil, Number.sum, List.foldlM_cons,
    List.foldlM_nil, Number.mul, Number.add, Number.onFloats, Number.toFloat, Number.divBy,
    Nat.cast_ofNat, small 0 (by simp), small 1 (by simp), small 2 (by simp), small 3 (by simp),
    small 10 (by simp), bind, Except.bind, pure, Except.pure]
  exact ⟨_, rfl⟩

namespace Report

theorem isJson_field {entries : Entries} (isJson : (Data.mapping entries).IsJson) (key : String) :
    (field entries key .null).IsJson := by
  cases isJson with
  | mapping _ each =>
      rw [field, Entries.get?, Entries.find?]
      cases found : List.find? (fun entry => entry.1.sameKey (.text key)) entries with
      | none => exact .scalar trivial
      | some entry => exact each entry (List.mem_of_find?_eq_some found)

theorem isJson_entriesOf {value : Data} (isJson : value.IsJson) :
    (Data.mapping (entriesOf value)).IsJson := by
  have empty : (Data.mapping []).IsJson := .mapping .nil (by simp)
  cases value with
  | scalar value => exact empty
  | list items => exact empty
  | mapping entries => exact isJson

theorem isJson_of_mem_mappingsOf {value : Data} (isJson : value.IsJson) {entries : Entries}
    (mem : entries ∈ mappingsOf value) : (Data.mapping entries).IsJson := by
  cases isJson with
  | scalar _ => cases mem
  | mapping _ _ => cases mem
  | list each =>
      rcases List.mem_filterMap.mp mem with ⟨item, itemMem, same⟩
      cases Data.entries?_eq_some_iff.mp same
      exact each _ itemMem

/-- The names of the rounded scores are the keys of a mapping. -/
theorem nodup_breakdownOf {value : Data} (isJson : value.IsJson) {breakdown : List (String × ℤ)}
    (returned : breakdownOf value = .ok breakdown) : (breakdown.map (·.1)).Nodup := by
  cases isJson_entriesOf isJson with
  | mapping named _ =>
      have keys : (entriesOf value).map (·.1) = breakdown.map fun score => .text score.1 := by
        apply map_eq_of_mapM returned
        rintro ⟨key, score⟩ mem result each
        rcases named.texts key (List.mem_map_of_mem mem) with ⟨name, rfl⟩
        rcases bind_eq_ok_iff.mp each with ⟨_, shown, each⟩
        rcases bind_eq_ok_iff.mp each with ⟨_, _, each⟩
        cases shown
        cases each
        rfl
      apply List.Nodup.of_map Scalar.text
      rw [List.map_map]
      exact keys ▸ named.distinct

theorem kept_of_submissionOf {entries : Entries} {report : SubmissionReport}
    (returned : submissionOf entries = .ok report)
    (noNan : ∀ score ∈ report.result.scores.named, score.2 ≠ .float .nan) : report.Kept := by
  rcases bind_eq_ok_iff.mp returned with ⟨_, _, returned⟩
  rcases bind_eq_ok_iff.mp returned with ⟨_, _, returned⟩
  rcases bind_eq_ok_iff.mp returned with ⟨metrics, counted, returned⟩
  rcases bind_eq_ok_iff.mp returned with ⟨scores, scored, returned⟩
  rcases bind_eq_ok_iff.mp returned with ⟨_, _, returned⟩
  rcases bind_eq_ok_iff.mp returned with ⟨_, _, returned⟩
  rcases bind_eq_ok_iff.mp returned with ⟨_, _, returned⟩
  rcases bind_eq_ok_iff.mp returned with ⟨_, _, returned⟩
  rcases bind_eq_ok_iff.mp returned with ⟨_, _, returned⟩
  cases returned
  have floats := exists_floats_of_scoresOf scored
  refine ⟨Metrics.kept_of_ofData counted, ?_, Scores.exists_weightedBase_of_floats floats⟩
  intro score mem
  rcases floats score mem with ⟨value, score_eq⟩
  rw [score_eq]
  apply Number.kept_float
  rintro rfl
  exact noNan score mem score_eq

theorem kept_of_statisticsOf {value : Data} (isJson : value.IsJson) {statistics : Statistics}
    (returned : statisticsOf value = .ok (some statistics))
    (noNan : ∀ entries ∈ statistics.recentTrend, .nan ∉ (Data.mapping entries).floats) :
    statistics.Kept := by
  cases isJson with
  | scalar _ => cases returned
  | list _ => cases returned
  | mapping named each =>
      have isJson := Data.IsJson.mapping named each
      rcases bind_eq_ok_iff.mp returned with ⟨_, _, returned⟩
      rcases bind_eq_ok_iff.mp returned with ⟨_, _, returned⟩
      rcases bind_eq_ok_iff.mp returned with ⟨latest, _, returned⟩
      rcases bind_eq_ok_iff.mp returned with ⟨_, _, returned⟩
      rcases bind_eq_ok_iff.mp returned with ⟨_, _, returned⟩
      rcases bind_eq_ok_iff.mp returned with ⟨breakdown, broken, returned⟩
      cases returned
      refine ⟨⟨latest, rfl⟩, nodup_breakdownOf (isJson_field isJson _) broken, ?_⟩
      intro entries mem
      exact ⟨isJson_of_mem_mappingsOf (isJson_field isJson _) mem, noNan entries mem⟩

/-- A restored report is kept. -/
theorem Restored.kept {report : Report} (restored : report.Restored) : report.Kept := by
  rcases restored.read with ⟨text, decoded⟩
  rcases bind_eq_ok_iff.mp decoded with ⟨data, denoted, returned⟩
  have isJson := isJson_entriesOf (Json.isJson_of_decode denoted)
  rcases bind_eq_ok_iff.mp returned with ⟨submissions, each, returned⟩
  rcases bind_eq_ok_iff.mp returned with ⟨_, _, returned⟩
  rcases bind_eq_ok_iff.mp returned with ⟨_, _, returned⟩
  rcases bind_eq_ok_iff.mp returned with ⟨statistics, computed, returned⟩
  cases returned
  constructor
  · intro submission mem
    have noNan := restored.scores submission mem
    have exists_entries := forall_of_forall₂ (mapM_eq_ok_iff.mp each) fun entries submission read =>
      (⟨entries, read⟩ : ∃ entries, submissionOf entries = .ok submission)
    rcases exists_entries submission mem with ⟨entries, read⟩
    exact kept_of_submissionOf read noNan
  · intro given mem
    have noNan := restored.trend given mem
    cases mem
    exact kept_of_statisticsOf (isJson_field isJson _) computed noNan

end Report

end Scorecard
