import Scorecard.Proofs.CommandLine.Stats
import Scorecard.Proofs.Report.RoundTrip

/-!
# Statistics of stored reports

A stored report is read with floats for scores, and its statistics take every score as the float
nearest to it. So nothing that the statistics use is changed by storing a report: the command gives
the statistics of the results as they were before, and of a single report those that are part of it.
Assembled reports have scores from zero to a hundred, so there are statistics of any number of them.
-/

namespace Scorecard

namespace Scores

theorem named_eq (scores : Scores) :
    scores.named = Statistics.skills.map fun skill => (skill.1, skill.2 scores) := rfl

theorem mem_named {scores : Scores} {skill : String × (Scores → Number)}
    (mem : skill ∈ Statistics.skills) : (skill.1, skill.2 scores) ∈ scores.named := by
  rw [named_eq]
  exact List.mem_map_of_mem mem

theorem skill_floats (scores : Scores) {skill : String × (Scores → Number)}
    (mem : skill ∈ Statistics.skills) :
    skill.2 scores.floats = .float (skill.2 scores).nearest := by
  simp only [Statistics.skills, List.mem_cons, List.not_mem_nil, or_false] at mem
  rcases mem with rfl | rfl | rfl | rfl | rfl <;> rfl

end Scores

/-- The entry with floats for scores. -/
def ScoredEntry.floats (entry : ScoredEntry) : ScoredEntry :=
  { entry with scores := entry.scores.floats }

namespace Statistics

theorem newestFirst_floats (entries : List ScoredEntry) :
    newestFirst (entries.map .floats) = (newestFirst entries).map .floats := by
  symm
  apply List.map_mergeSort
  intro left _ right _
  rfl

theorem roundedMean_floats {numbers : List Number}
    (converts : ∀ number ∈ numbers, number.toFloat = .ok number.nearest) :
    roundedMean (numbers.map fun number => .float number.nearest) = roundedMean numbers := by
  have floats : ∀ taken : List Number, (∀ number ∈ taken, number.toFloat = .ok number.nearest) →
      taken.mapM Number.toFloat = .ok (taken.map Number.nearest) := by
    intro taken takenConverts
    rw [mapM_eq_ok_iff, List.forall₂_map_right_iff, List.forall₂_same]
    exact takenConverts
  have again :=
    floats (numbers.map fun number => .float number.nearest)
      (by simp [Number.toFloat, Number.nearest])
  rw [List.map_map] at again
  rw [roundedMean, roundedMean, floats numbers converts, again]
  rfl

variable {ranked : List ScoredEntry}

theorem breakdown_floats (kept : ∀ entry ∈ ranked, entry.scores.Kept) :
    breakdown (ranked.map .floats) = breakdown ranked := by
  have mean : ∀ skill ∈ skills, roundedMean (column (ranked.map .floats) skill) =
      roundedMean (column ranked skill) := by
    intro skill skillMem
    have column_eq : column (ranked.map .floats) skill =
        (column ranked skill).map fun number => .float number.nearest := by
      simp only [column, List.map_map]
      apply List.map_congr_left
      intro entry _
      exact entry.scores.skill_floats skillMem
    rw [column_eq]
    apply roundedMean_floats
    intro number mem
    rcases List.mem_map.mp mem with ⟨entry, entryMem, rfl⟩
    exact (kept entry entryMem).toFloat_eq (Scores.mem_named skillMem)
  have rounded : ∀ entries, breakdown entries = skills.mapM fun skill => do
      return (skill.1, ← roundedMean (column entries skill)) := fun _ => rfl
  rw [rounded, rounded]
  simp only [skills, List.forall_mem_cons] at mean ⊢
  rcases mean with ⟨quality, time, space, security, readability, _⟩
  simp only [List.mapM_cons, List.mapM_nil, quality, time, space, security, readability]

/-- Statistics do not see whether scores are floats. -/
theorem ofEntries_floats {entries : List ScoredEntry}
    (kept : ∀ entry ∈ entries, entry.scores.Kept) :
    ofEntries (entries.map .floats) = ofEntries entries := by
  have ranked : ∀ entry ∈ newestFirst entries, entry.scores.Kept :=
    fun entry mem => kept entry (List.mem_mergeSort.mp mem)
  have devScores : ((newestFirst entries).map ScoredEntry.floats).map (·.devScore) =
      (newestFirst entries).map (·.devScore) := by
    rw [List.map_map]
    rfl
  have improvement :
      improvementOf ((newestFirst entries).map .floats) = improvementOf (newestFirst entries) := by
    rw [improvementOf, improvementOf, List.length_map, devScores]
  have trend_eq : trend ((newestFirst entries).map .floats) = trend (newestFirst entries) := by
    rw [trend, trend, ← List.map_take, ← List.map_reverse, List.map_map]
    rfl
  rw [ofEntries, ofEntries, newestFirst_floats, List.head?_map]
  cases (newestFirst entries).head? with
  | none => rfl
  | some latest =>
      simp only [Option.map_some, breakdown_floats ranked, devScores, improvement, trend_eq,
        List.length_map]
      rfl

end Statistics

theorem Number.IsScore.moderate {number : Number} (isScore : number.IsScore) : number.Moderate := by
  rcases exists_toFloat isScore.worth isScore.within (by decide) with ⟨float, converts, worth⟩
  cases converts.symm.trans (toFloat_eq_nearest converts)
  exact ⟨_, worth, isScore.within.mono Binary64.summableBound_spec.2.2.2.2⟩

theorem Scores.InRange.moderate {scores : Scores} (inRange : scores.InRange)
    {skill : String × (Scores → Number)} (mem : skill ∈ Statistics.skills) :
    (skill.2 scores).Moderate := by
  rcases inRange with ⟨codeQuality, timeComplexity, spaceComplexity, security, readability⟩
  simp only [Statistics.skills, List.mem_cons, List.not_mem_nil, or_false] at mem
  rcases mem with rfl | rfl | rfl | rfl | rfl <;> exact Number.IsScore.moderate ‹_›

namespace Report

theorem Assembled.inRange {report : Report} (assembled : report.Assembled) :
    ∀ submission ∈ report.submissions, submission.result.scores.InRange ∧
      0 ≤ submission.result.devScore ∧ submission.result.devScore ≤ 100 := by
  rcases assembled.results with ⟨tree, evaluator, routes, submissions, journal, evaluated, _⟩
  have each := List.forall₂_map_right_iff.mp (forall₂_coherent evaluated)
  refine forall_of_forall₂ each ?_
  intro submission reported coherent
  exact ⟨coherent.scores, coherent.devScore_nonneg, coherent.devScore_le⟩

/-- Any number of assembled reports has statistics. -/
theorem exists_statistics_of_assembled {reports : List Report}
    (assembled : ∀ report ∈ reports, report.Assembled)
    (few : (reports.flatMap (·.submissions)).length < Binary64.beyond) :
    ∃ statistics, Statistics.ofReports (reports.flatMap (·.submissions)) = .ok statistics := by
  have inRange : ∀ entry ∈ Statistics.rankedEntries (reports.flatMap (·.submissions)),
      entry.scores.InRange ∧ ∃ score, entry.devScore = .int score ∧ 0 ≤ score ∧ score ≤ 100 := by
    intro entry mem
    rcases List.mem_map.mp (List.mem_mergeSort.mp mem) with ⟨submission, submissionMem, rfl⟩
    rcases List.mem_flatMap.mp submissionMem with ⟨report, reportMem, submissionMem⟩
    rcases (assembled report reportMem).inRange submission submissionMem with ⟨scores, nonneg, le⟩
    exact ⟨scores, _, rfl, nonneg, le⟩
  rw [Statistics.ofReports_returned_iff]
  apply Statistics.summable_of_moderate
  · rw [Statistics.rankedEntries, Statistics.newestFirst, List.length_mergeSort, List.length_map]
    exact few
  · intro entry mem skill skillMem
    exact (inRange entry mem).1.moderate skillMem
  · intro entry mem
    rcases (inRange entry mem).2 with ⟨score, score_eq, nonneg, le⟩
    exact ⟨score, score_eq, le_trans (by omega) Binary64.summableBound_spec.2.2.2.2⟩

/-- The file at a path is what writing the report left there. -/
def StoredAt (report : Report) (tree : FileTree) (path : Path) : Prop :=
  ∃ before time written, report.write before path time = .ok written ∧
    tree.read path = written.read path

theorem read_of_storedAt {report : Report} (assembled : report.Assembled) {tree : FileTree}
    {path : Path} (stored : report.StoredAt tree path) : read tree path = .ok report.reread := by
  rcases stored with ⟨before, time, written, wrote, same⟩
  rw [← read_eq_reread (.inl assembled) wrote]
  simp only [read, FileTree.readText, same]

end Report

namespace Command

theorem allRead_of_stored {names : List String} {reports : List Report} {tree : FileTree}
    (stored : List.Forall₂ (fun name report => report.StoredAt tree (.ofString name)) names reports)
    (assembled : ∀ report ∈ reports, report.Assembled) :
    AllRead tree (names.map .ofString) (reports.map .reread) := by
  induction stored with
  | nil => exact .nil
  | cons first _ ih =>
      rw [List.forall_mem_cons] at assembled
      exact .cons (Report.read_of_storedAt assembled.1 first) (ih assembled.2)

theorem ofReports_reread {reports : List Report}
    (assembled : ∀ report ∈ reports, report.Assembled) :
    Statistics.ofReports ((reports.map Report.reread).flatMap (·.submissions)) =
      Statistics.ofReports (reports.flatMap (·.submissions)) := by
  have submissions : (reports.map Report.reread).flatMap (·.submissions) =
      (reports.flatMap (·.submissions)).map SubmissionReport.reread := by
    rw [List.flatMap_map, List.map_flatMap]
    rfl
  have entries : ((reports.flatMap (·.submissions)).map SubmissionReport.reread).map (·.entry) =
      ((reports.flatMap (·.submissions)).map (·.entry)).map ScoredEntry.floats := by
    rw [List.map_map, List.map_map]
    rfl
  rw [Statistics.ofReports, submissions, entries, Statistics.ofReports]
  apply Statistics.ofEntries_floats
  intro entry mem
  rcases List.mem_map.mp mem with ⟨submission, submissionMem, rfl⟩
  rcases List.mem_flatMap.mp submissionMem with ⟨report, reportMem, submissionMem⟩
  exact ((assembled report reportMem).kept.submissions submission submissionMem).scores

/-- For stored reports the command succeeds and prints the statistics of their results as they were
in memory. If there is only one report, these are the statistics that it holds. The results are
counted by a float, which no list that fits into a memory is too long for. -/
theorem runStats_stored {names : List String} {reports : List Report} {session : Session}
    (assembled : ∀ report ∈ reports, report.Assembled)
    (stored : List.Forall₂
      (fun name report => report.StoredAt session.tree (.ofString name)) names reports)
    (few : (reports.flatMap (·.submissions)).length < Binary64.beyond) :
    ∃ statistics text, Statistics.ofReports (reports.flatMap (·.submissions)) = .ok statistics ∧
      Json.encode .indented statistics.toData = .ok text ∧
      (runStats names).runOn session = (.ok .success, session.printed text) ∧
      ∀ report, reports = [report] → ∀ held ∈ report.statistics, held = statistics := by
  rcases Report.exists_statistics_of_assembled assembled few with ⟨statistics, computed⟩
  rcases Statistics.exists_encode computed with ⟨text, written⟩
  refine ⟨statistics, text, computed, written, ?_, ?_⟩
  · rw [runStats_of_allRead (allRead_of_stored stored assembled), ofReports_reread assembled,
      computed]
    simp only [written]
  · rintro report rfl held mem
    have returned := (assembled report (List.mem_singleton_self _)).statistics held mem
    rw [List.flatMap_singleton, returned] at computed
    exact Except.ok.inj computed

/-- The report of one submission with its statistics. -/
def completeSample : Report :=
  { Report.assembledSample with
  statistics := (Statistics.ofReports Report.assembledSample.submissions).toOption }

theorem assembled_complete : completeSample.Assembled where
  results := Report.assembled_sample.results
  few := Report.assembled_sample.few
  version := Report.assembled_sample.version
  statistics := by
    intro statistics mem
    change statistics ∈ (Statistics.ofReports Report.assembledSample.submissions).toOption at mem
    change Statistics.ofReports Report.assembledSample.submissions = .ok statistics
    cases returned : Statistics.ofReports Report.assembledSample.submissions with
    | error fault => simp [returned, Except.toOption] at mem
    | ok computed =>
        rw [returned, Except.toOption, Option.mem_some_iff] at mem
        rw [mem]

/-- Two assembled reports, written one after the other. -/
theorem exists_stored {first second : Report} (firstAssembled : first.Assembled)
    (secondAssembled : second.Assembled) :
    ∃ tree, first.StoredAt tree (.ofString "a.json") ∧
      second.StoredAt tree (.ofString "b.json") := by
  rcases Report.exists_encode firstAssembled.kept firstAssembled.short with ⟨text, encoded, _⟩
  rcases Report.exists_encode secondAssembled.kept secondAssembled.short with
    ⟨other, otherEncoded, _⟩
  have wrote : first.write ⟨[], []⟩ (.ofString "a.json") 0 =
      .ok ⟨[], [(["a.json"], .file (Utf8.encode text.toList) 0)]⟩ := by
    rw [Report.write_eq encoded]
    rfl
  have otherWrote :
      second.write ⟨[], [(["a.json"], .file (Utf8.encode text.toList) 0)]⟩ (.ofString "b.json") 0 =
        .ok ⟨[], [(["a.json"], .file (Utf8.encode text.toList) 0),
          (["b.json"], .file (Utf8.encode other.toList) 0)]⟩ := by
    rw [Report.write_eq otherEncoded]
    rfl
  refine ⟨_, ?_, ⟨_, _, _, otherWrote, rfl⟩⟩
  exact ⟨_, _, _, wrote, rfl⟩

/-- A report without its statistics and one with them, both in files, and the latter alone. -/
theorem runStats_stored_two :
    ∃ session statistics text held heldText,
      Report.assembledSample.StoredAt session.tree (.ofString "a.json") ∧
      completeSample.StoredAt session.tree (.ofString "b.json") ∧
      Statistics.ofReports (Report.assembledSample.submissions ++ completeSample.submissions) =
        .ok statistics ∧
      (runStats ["a.json", "b.json"]).runOn session = (.ok .success, session.printed text) ∧
      completeSample.statistics = some held ∧ Json.encode .indented held.toData = .ok heldText ∧
      (runStats ["b.json"]).runOn session = (.ok .success, session.printed heldText) := by
  rcases exists_stored Report.assembled_sample assembled_complete with ⟨tree, stored, storedToo⟩
  have both : ∀ report ∈ [Report.assembledSample, completeSample], report.Assembled := by
    simp [Report.assembled_sample, assembled_complete]
  have few : ∀ count ≤ 2, count < Binary64.beyond := by
    intro count le
    exact lt_of_le_of_lt le (by decide +kernel)
  rcases @runStats_stored ["a.json", "b.json"] _ ⟨tree, {}, ""⟩ both
    (.cons stored (.cons storedToo .nil)) (few _ le_rfl) with
    ⟨statistics, text, computed, _, printed, _⟩
  rcases @runStats_stored ["b.json"] [completeSample] ⟨tree, {}, ""⟩
    (fun report mem => both report (by simp_all)) (.cons storedToo .nil) (few _ (by decide)) with
    ⟨held, heldText, heldComputed, written, heldPrinted, _⟩
  refine ⟨⟨tree, {}, ""⟩, statistics, text, held, heldText, stored, storedToo, ?_, printed, ?_,
    written, heldPrinted⟩
  · rw [← computed]
    rfl
  · change (Statistics.ofReports Report.assembledSample.submissions).toOption = some held
    change Statistics.ofReports Report.assembledSample.submissions = .ok held at heldComputed
    rw [heldComputed]
    rfl

end Command

end Scorecard
