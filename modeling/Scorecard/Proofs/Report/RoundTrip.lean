import Scorecard.Proofs.FileSystem.ReadBack
import Scorecard.Proofs.Json.RoundTrip
import Scorecard.Proofs.Json.Written
import Scorecard.Proofs.Report.Modest

/-!
# Reading written reports

A report that was assembled from evaluated submissions or restored from a text can be written, and
the file it is written to is read as an equal report. Three facts meet here: the text of a document
denotes the document, a written file is read back as its text, and the reader keeps what the
document says.
-/

namespace Scorecard

namespace Report

variable {report : Report}

theorem kept_of_origin (origin : report.Assembled ∨ report.Restored) : report.Kept := by
  rcases origin with assembled | restored
  · exact assembled.kept
  · exact restored.kept

theorem short_of_origin (origin : report.Assembled ∨ report.Restored) : report.Short := by
  rcases origin with assembled | restored
  · exact assembled.short
  · exact restored.short

/-- The text of a kept report of short integers denotes the report with floats for scores. -/
theorem exists_encode (kept : report.Kept) (short : report.Short) :
    ∃ text, report.encode = .ok text ∧ Json.AllWritten text.toList ∧
      decode text = .ok report.reread := by
  rcases toData_kept kept with ⟨data, documented, isJson, read⟩
  rcases Json.encode_writtenIf .indented data with ⟨text, written⟩ | ⟨_, long⟩
  · refine ⟨text, ?_, Json.allWritten_encode _ written, ?_⟩
    · simp only [encode, documented, bind, Except.bind, written]
    · simp only [decode, Json.decode_encode isJson written, bind, Except.bind, read]
  · exact absurd (short.writable documented) long

theorem write_eq {text : String} (encoded : report.encode = .ok text) (tree : FileTree)
    (path : Path) (time : ℤ) : report.write tree path time = tree.writeText path text time := by
  simp only [write, FileTree.writeText, encoded, bind, Except.bind]

/-- The file to which an assembled or restored report is written is read as the report with floats
for scores. -/
theorem read_eq_reread (origin : report.Assembled ∨ report.Restored) {tree written : FileTree}
    {path : Path} {time : ℤ} (wrote : report.write tree path time = .ok written) :
    read written path = .ok report.reread := by
  rcases exists_encode (kept_of_origin origin) (short_of_origin origin) with
    ⟨text, encoded, allWritten, decoded⟩
  rw [write_eq encoded] at wrote
  rcases bind_eq_ok_iff.mp wrote with ⟨ready, _, wrote⟩
  have back := FileTree.readText_of_read allWritten.plain (FileTree.read_write wrote)
  simp only [read, back, bind, Except.bind, String.ofList_toList, decoded]

/-- An assembled or restored report has a text, so that only the file system can refuse to write it,
and the file it is written to is read as an equal report. -/
theorem read_written (origin : report.Assembled ∨ report.Restored) :
    ∃ text, report.encode = .ok text ∧ ∀ tree path time,
      report.write tree path time = tree.writeText path text time ∧
      ∀ written, report.write tree path time = .ok written →
        ∃ again, read written path = .ok again ∧ report.equals again = true := by
  have kept := kept_of_origin origin
  rcases exists_encode kept (short_of_origin origin) with ⟨text, encoded, _⟩
  refine ⟨text, encoded, fun tree path time => ⟨write_eq encoded tree path time, ?_⟩⟩
  intro written wrote
  exact ⟨report.reread, read_eq_reread origin wrote, kept.equals_reread⟩

/-- A report of one submission without an opinion. -/
def assembledSample : Report where
  schemaVersion := -2
  generatedAt := "today"
  submissions := [{
    label := "a", submittedAt := "now"
    result := {
      language := "python", family := some "python", interviewMode := true
      metrics := { consoleLogs := 1, securityRisks := 1 }
      scores := Evaluation.neutral.scores, feedback := Evaluation.neutral.feedback
      staticPenalty := 3, devScore := 44, fallback := true } }]
  statistics := none

theorem assembled_sample : assembledSample.Assembled where
  results := by
    refine ⟨⟨[], []⟩, .neutral, [], [⟨.text "print(eval(x))", .text "py", true, "", ""⟩],
      {}, ?_, ?_⟩
    · decide +kernel
    · intro submission mem text read
      rw [List.mem_singleton] at mem
      subst mem
      cases read
      decide +kernel
  few := by decide +kernel
  version := by decide +kernel
  statistics := by simp [assembledSample]

/-- A text in which most fields are missing and some are of another kind. -/
def looseText : String :=
  "\x7b\"submissions\": [\x7b\"label\": 1, \"scores\": \x7b\"codeQuality\": 80\x7d," ++
    "\"static_penalty\": 3.9\x7d, 5], \"stats\": \x7b\"recent_trend\": " ++
    "[\x7b\"dev_score\": 7\x7d, 1]\x7d\x7d"

theorem exists_restored_loose : ∃ report, decode looseText = .ok report ∧
    report.submissions.length = 1 ∧ report.statistics.isSome = true ∧ report.Restored := by
  have checked : ∃ report, decode looseText = .ok report ∧
      report.submissions.length = 1 ∧ report.statistics.isSome = true ∧
      (∀ submission ∈ report.submissions, ∀ score ∈ submission.result.scores.named,
        score.2 ≠ .float .nan) ∧
      (∀ statistics ∈ report.statistics, ∀ entries ∈ statistics.recentTrend,
        .nan ∉ (Data.mapping entries).floats) ∧
      ∀ value ∈ report.integers, value.natAbs < 2 ^ 63 := by
    decide +kernel
  rcases checked with ⟨report, decoded, one, some, scores, trend, small⟩
  refine ⟨report, decoded, one, some, ⟨looseText, decoded⟩, scores, trend, ?_⟩
  intro value mem
  exact (small value mem).trans (by decide +kernel)

/-- An assembled report and one that was restored from a loose text. -/
theorem read_written_samples :
    (∃ text, assembledSample.encode = .ok text ∧ ∀ tree path time written,
      assembledSample.write tree path time = .ok written →
        ∃ again, read written path = .ok again ∧ assembledSample.equals again = true) ∧
    ∃ report, decode looseText = .ok report ∧ report.submissions.length = 1 ∧
      report.statistics.isSome = true ∧ ∃ text, report.encode = .ok text ∧
        ∀ tree path time written, report.write tree path time = .ok written →
          ∃ again, read written path = .ok again ∧ report.equals again = true := by
  constructor
  · rcases read_written (.inl assembled_sample) with ⟨text, encoded, back⟩
    exact ⟨text, encoded, fun tree path time => (back tree path time).2⟩
  · rcases exists_restored_loose with ⟨report, decoded, one, some, restored⟩
    rcases read_written (.inr restored) with ⟨text, encoded, back⟩
    exact ⟨report, decoded, one, some, text, encoded, fun tree path time => (back tree path time).2⟩

end Report

end Scorecard
