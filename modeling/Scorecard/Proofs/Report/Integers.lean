import Scorecard.Proofs.Display
import Scorecard.Proofs.Report.Kept

/-!
# The integers of a report

A document of a report holds the integers of the report and, for each result, what its penalty takes
off, which is at most twice the penalty. So a report whose integers are a little shorter than the
limit can be written.
-/

namespace Scorecard

namespace SubmissionReport

/-- The integers that a result holds. -/
def integers (report : SubmissionReport) : List ℤ :=
  report.result.metrics.toData.integers ++ report.result.scores.toData.integers ++
    [report.result.staticPenalty, report.result.devScore]

end SubmissionReport

namespace Report

/-- The integers that a report holds. -/
def integers (report : Report) : List ℤ :=
  report.schemaVersion :: (report.submissions.flatMap SubmissionReport.integers ++
    report.statistics.toList.flatMap (·.toData.integers))

/-- Every integer of the report has at most 4000 digits. -/
def Short (report : Report) : Prop :=
  ∀ value ∈ report.integers, value.natAbs < 10 ^ 4000

end Report

theorem optionalText_integers (text : Option String) : (optionalText text).integers = [] := by
  cases text <;> rfl

theorem Feedback.textsData_integers (texts : List String) : (textsData texts).integers = [] := by
  rw [List.eq_nil_iff_forall_not_mem]
  intro value mem
  rw [textsData, Data.integers, Data.collect, Data.mem_collectItems] at mem
  rcases mem with ⟨item, itemMem, mem⟩
  rcases List.mem_map.mp itemMem with ⟨text, _, rfl⟩
  simp [Data.collect, Scalar.integers] at mem

theorem Feedback.toData_integers (feedback : Feedback) : feedback.toData.integers = [] := by
  have texts := Feedback.textsData_integers
  simp only [Data.integers] at texts
  simp [toData, Data.integers, Data.collect, Data.collectEntries, Scalar.integers, texts]

theorem SubmissionReport.mem_integers_entries {report : SubmissionReport} {base : Binary64}
    {value : ℤ} (mem : value ∈ (Data.mapping (report.entries base)).integers) :
    value ∈ report.integers ∨ value = appliedPoints report.result.staticPenalty := by
  have family := optionalText_integers report.result.family
  have feedback := report.result.feedback.toData_integers
  simp only [Data.integers] at family feedback
  simp only [Data.integers, entries, Data.collect, Data.collectEntries, Scalar.integers, family,
    feedback, List.nil_append, List.append_nil, List.mem_append, List.mem_cons, List.not_mem_nil,
    or_false] at mem
  simp only [integers, Data.integers, List.mem_append, List.mem_cons, List.not_mem_nil, or_false]
  tauto

namespace Report

variable {report : Report}

theorem mem_integers_toData {data : Data} (written : report.toData = .ok data) {value : ℤ}
    (mem : value ∈ data.integers) :
    value ∈ report.integers ∨ ∃ penalty ∈ report.integers, value = appliedPoints penalty := by
  rcases bind_eq_ok_iff.mp written with ⟨documents, each, returned⟩
  cases returned
  have parts : value = report.schemaVersion ∨ value ∈ Data.collectItems Scalar.integers documents ∨
      ∃ statistics ∈ report.statistics, value ∈ statistics.toData.integers := by
    cases statistics_eq : report.statistics with
    | none =>
        simpa [Data.integers, Data.collect, Data.collectEntries, Scalar.integers, statistics_eq]
          using mem
    | some statistics =>
        simpa [Data.integers, Data.collect, Data.collectEntries, Scalar.integers, statistics_eq]
          using mem
  rcases parts with rfl | inDocument | ⟨statistics, statisticsMem, inStatistics⟩
  · left
    simp [integers]
  · rcases Data.mem_collectItems.mp inDocument with ⟨document, documentMem, inDocument⟩
    have origin := forall_of_forall₂ ((List.forall₂_and_left _ _).mpr ⟨fun _ mem => mem,
      mapM_eq_ok_iff.mp each⟩) fun submission document both =>
        (⟨submission, both⟩ : ∃ submission ∈ report.submissions, submission.toData = .ok document)
    rcases origin document documentMem with ⟨submission, submissionMem, documented⟩
    rcases bind_eq_ok_iff.mp documented with ⟨base, based, _⟩
    rw [SubmissionReport.toData_eq based] at documented
    cases documented
    have held : ∀ found ∈ submission.integers, found ∈ report.integers := by
      intro found foundMem
      simp only [integers, List.mem_cons, List.mem_append, List.mem_flatMap]
      exact .inr (.inl ⟨submission, submissionMem, foundMem⟩)
    rcases SubmissionReport.mem_integers_entries inDocument with known | applied
    · exact .inl (held value known)
    · exact .inr ⟨_, held _ (by simp [SubmissionReport.integers]), applied⟩
  · left
    simp only [integers, List.mem_cons, List.mem_append, List.mem_flatMap, Option.mem_toList]
    exact .inr (.inr ⟨statistics, statisticsMem, inStatistics⟩)

/-- A report of short integers has a document that can be written. -/
theorem Short.writable (short : report.Short) {data : Data} (written : report.toData = .ok data) :
    Writable data.integers := by
  intro value mem
  have roomy : 2 * 10 ^ 4000 + 10 < 10 ^ digitLimit := by decide +kernel
  rcases mem_integers_toData written mem with known | ⟨penalty, known, rfl⟩
  · have bound := short value known
    omega
  · have bound := short penalty known
    rw [appliedPoints]
    omega

end Report

end Scorecard
