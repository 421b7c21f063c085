import Scorecard.CommandLine.Run
import Scorecard.Proofs.FileSystem.ReadBack
import Scorecard.Proofs.Json.Written
import Scorecard.Proofs.Report.Modest
import Scorecard.Proofs.Report.Summable
import Scorecard.Proofs.Report.Tolerance
import Scorecard.Proofs.Session

/-!
# The command for statistics

The command reads all reports and prints the statistics of their submissions. It fails at the first
report that is missing or broken. Two things it does not recover from: a report with a number that
its reader cannot use, and scores that have no statistics.
-/

namespace Scorecard

theorem Json.isBadValue_of_decode {text : String} {fault : Fault}
    (failed : decode text = .error fault) : fault.isBadValue = true := by
  rw [decode] at failed
  split at failed
  · cases failed
  · cases failed
    rfl
  · cases failed
    rfl

/-- The document in a file holds a number that the reader of reports cannot use. -/
inductive UnusableNumber (tree : FileTree) (path : Path) (fault : Fault) : Prop
  | ofDocument {text : List Char} {data : Data} (readable : tree.readText path = .ok text)
      (decoded : Json.decode (String.ofList text) = .ok data) (explains : data.Explains fault)
      (number : fault = .infinityToInteger ∨ fault = .integerBeyondFloat)

/-- A report that is not read is missing, broken, or holds a number that cannot be used. -/
theorem Report.fault_of_read {tree : FileTree} {path : Path} {fault : Fault}
    (failed : read tree path = .error fault) :
    (fault.isFileProblem || fault.isBadValue) = true ∨ UnusableNumber tree path fault := by
  rw [Bool.or_eq_true]
  cases readable : tree.readText path with
  | error problem =>
      rw [read, readable] at failed
      cases failed
      exact .inl (FileTree.recoverable_of_readText readable)
  | ok text =>
      cases decoded : Json.decode (String.ofList text) with
      | error problem =>
          rw [read, readable] at failed
          change decode (String.ofList text) = _ at failed
          rw [decode, decoded] at failed
          cases failed
          exact .inl (.inr (Json.isBadValue_of_decode decoded))
      | ok data =>
          rcases read_tolerated readable decoded with ⟨yields, explained⟩
          have explains := explained fault (yields.mem_of_failed failed)
          right
          refine .ofDocument readable decoded explains ?_
          cases explains with
          | infinity mem => exact .inl rfl
          | integer mem large => exact .inr rfl
          | long mem large =>
              exact absurd (Json.writable_of_decode decoded _ mem) (Nat.not_lt.mpr large)

namespace Statistics

/-- The entries of reports, newest first. -/
def rankedEntries (submissions : List SubmissionReport) : List ScoredEntry :=
  newestFirst (submissions.map (·.entry))

theorem integerScored_entries (submissions : List SubmissionReport) :
    IntegerScored (submissions.map (·.entry)) := by
  intro entry mem
  rcases List.mem_map.mp mem with ⟨submission, _, rfl⟩
  exact ⟨_, rfl⟩

/-- Results have statistics exactly if what is added up stays in the range of the floats. -/
theorem ofReports_returned_iff (submissions : List SubmissionReport) :
    (∃ statistics, ofReports submissions = .ok statistics) ↔
      Summable (rankedEntries submissions) := by
  rcases ofEntries_yields (integerScored_entries submissions) with
    ⟨computed, faults, yields, silent, _⟩
  rw [rankedEntries, ← silent]
  constructor
  · rintro ⟨statistics, returned⟩
    exact (yields.of_returned returned).1
  · intro none
    exact ⟨computed, yields.returned_iff.mpr none⟩

theorem isRangeFault_of_ofReports {submissions : List SubmissionReport} {fault : Fault}
    (failed : ofReports submissions = .error fault) : IsRangeFault fault := by
  rcases ofEntries_yields (integerScored_entries submissions) with
    ⟨computed, faults, yields, _, range⟩
  exact range fault (yields.mem_of_failed failed)

theorem modest_of_lt_beyond {value : ℤ} (small : value.natAbs < Binary64.beyond) :
    Modest value := by
  have room : Binary64.beyond ≤ 2 ^ floatExponent := Nat.sub_le _ _
  rw [Modest, Int.abs_eq_natAbs]
  exact_mod_cast small.le.trans room

/-- Statistics can always be written. -/
theorem exists_encode {submissions : List SubmissionReport} {statistics : Statistics}
    (returned : ofReports submissions = .ok statistics) :
    ∃ text, Json.encode .indented statistics.toData = .ok text := by
  have summable := (ofReports_returned_iff submissions).mp ⟨statistics, returned⟩
  have few : Modest (submissions.map (·.entry)).length := by
    have count := summable.few
    rw [rankedEntries, newestFirst, List.length_mergeSort] at count
    exact modest_of_lt_beyond count
  have each :
      ∀ entry ∈ submissions.map (·.entry), ∃ score, entry.devScore = .int score ∧ Modest score := by
    intro entry mem
    rcases integerScored_entries submissions entry mem with ⟨score, score_eq⟩
    have finite := (summable.finite entry mem).1
    rw [score_eq] at finite
    exact ⟨score, score_eq, modest_of_lt_beyond ((Binary64.isFinite_ofInt_iff score).mp finite)⟩
  have room : 10 ^ 4000 ≤ 10 ^ digitLimit := by decide +kernel
  rcases Json.encode_writtenIf .indented statistics.toData with written | ⟨_, long⟩
  · exact written
  · refine absurd (fun value mem => ?_) long
    exact (modest_of_ofEntries few each returned value mem).natAbs_lt.trans_le room

end Statistics

namespace Command

section

variable {tree : FileTree} {paths : List Path} {path : Path} {reports : List Report} {fault : Fault}

/-- The files at the paths are read as the reports. -/
def AllRead (tree : FileTree) (paths : List Path) (reports : List Report) : Prop :=
  List.Forall₂ (fun path report => Report.read tree path = .ok report) paths reports

/-- The file at the path is the first one that is not read, for the given reason. -/
def FirstUnread (tree : FileTree) (paths : List Path) (path : Path) (fault : Fault) : Prop :=
  ∃ before after reports, paths = before ++ path :: after ∧ AllRead tree before reports ∧
    Report.read tree path = .error fault

theorem FirstUnread.cons {report : Report} (read : Report.read tree path = .ok report)
    {unread : Path} (first : FirstUnread tree paths unread fault) :
    FirstUnread tree (path :: paths) unread fault := by
  rcases first with ⟨before, after, reports, rfl, allRead, failed⟩
  exact ⟨path :: before, after, report :: reports, rfl, .cons read allRead, failed⟩

theorem allRead_or_firstUnread (tree : FileTree) (paths : List Path) :
    (∃ reports, AllRead tree paths reports) ∨ ∃ path fault, FirstUnread tree paths path fault := by
  induction paths with
  | nil => exact .inl ⟨[], .nil⟩
  | cons path paths ih =>
      cases read : Report.read tree path with
      | error fault => exact .inr ⟨path, fault, [], paths, [], rfl, .nil, read⟩
      | ok report =>
          rcases ih with ⟨reports, allRead⟩ | ⟨unread, fault, first⟩
          · exact .inl ⟨report :: reports, .cons read allRead⟩
          · exact .inr ⟨unread, fault, first.cons read⟩

end

variable {session : Session} {paths : List Path} {path : Path} {reports : List Report}
  {fault : Fault}

/-- What was read of a list of reports is read of a longer one. -/
theorem readReports_append {before : List Path} (allRead : AllRead session.tree before reports)
    (after : List Path) :
    (readReports (before ++ after)).runOn session = match (readReports after).runOn session with
      | (.ok entries, later) => (.ok (entries.map (reports.flatMap (·.submissions) ++ ·)), later)
      | (.error fault, later) => (.error fault, later) := by
  induction allRead with
  | nil =>
      rw [List.nil_append]
      rcases (readReports after).runOn session with ⟨fault | entries, later⟩ <;> simp
  | @cons path report before reports read _ ih =>
      rw [List.cons_append, readReports, Action.runOn_bind, Action.runOn_tree]
      simp only [read, Action.runOn_bind, ih]
      rcases (readReports after).runOn session with ⟨fault | entries, later⟩
      · rfl
      · simp [Function.comp_def]

theorem readReports_of_allRead (allRead : AllRead session.tree paths reports) :
    (readReports paths).runOn session =
      (.ok (some (reports.flatMap (·.submissions))), session) := by
  have whole := readReports_append allRead []
  rw [List.append_nil] at whole
  rw [whole, readReports, Action.runOn_pure]
  simp

theorem readReports_of_firstUnread (first : FirstUnread session.tree paths path fault) :
    (readReports paths).runOn session =
      if fault.isFileProblem || fault.isBadValue then
        (.ok none, session.noted (.unreadableReport path.display fault))
      else
        (.error fault, session) := by
  rcases first with ⟨before, after, reports, rfl, allRead, failed⟩
  rw [readReports_append allRead (path :: after), readReports, Action.runOn_bind, Action.runOn_tree]
  simp only [failed]
  by_cases recovered : (fault.isFileProblem || fault.isBadValue) = true
  · rw [if_pos recovered, if_pos recovered, Action.runOn_bind, Action.runOn_note]
    rfl
  · rw [if_neg recovered, if_neg recovered, Action.runOn_throw]

/-- How the command for statistics ends, and what it leaves behind. -/
inductive StatsEnd (session : Session) (paths : List Path) : Except Fault Exit × Session → Prop
  /-- All reports are read, and their statistics are printed. -/
  | printed {reports : List Report} {statistics : Statistics} {text : String}
      (allRead : AllRead session.tree paths reports)
      (summable : Statistics.Summable (Statistics.rankedEntries (reports.flatMap (·.submissions))))
      (computed : Statistics.ofReports (reports.flatMap (·.submissions)) = .ok statistics)
      (written : Json.encode .indented statistics.toData = .ok text) :
      StatsEnd session paths (.ok .success, session.printed text)
  /-- The first report that is not read is missing or broken, which is noted. -/
  | unreadable {path : Path} {fault : Fault} (first : FirstUnread session.tree paths path fault)
      (recovered : (fault.isFileProblem || fault.isBadValue) = true) :
      StatsEnd session paths (.ok .failure, session.noted (.unreadableReport path.display fault))
  /-- The first report that is not read holds a number that cannot be used. -/
  | unusable {path : Path} {fault : Fault} (first : FirstUnread session.tree paths path fault)
      (number : UnusableNumber session.tree path fault) :
      StatsEnd session paths (.error fault, session)
  /-- All reports are read, but their scores have no statistics. -/
  | unsummable {reports : List Report} {fault : Fault}
      (allRead : AllRead session.tree paths reports)
      (unsummable :
        ¬Statistics.Summable (Statistics.rankedEntries (reports.flatMap (·.submissions))))
      (range : Statistics.IsRangeFault fault) : StatsEnd session paths (.error fault, session)

theorem UnusableNumber.not_recovered {tree : FileTree} {fault : Fault}
    (number : UnusableNumber tree path fault) :
    ¬(fault.isFileProblem || fault.isBadValue) = true := by
  rcases number with ⟨_, _, _, rfl | rfl⟩ <;> simp [Fault.isFileProblem, Fault.isBadValue]

theorem runStats_of_firstUnread {names : List String}
    (first : FirstUnread session.tree (names.map .ofString) path fault) :
    StatsEnd session (names.map .ofString) ((runStats names).runOn session) := by
  have failed : Report.read session.tree path = .error fault := by
    rcases first with ⟨_, _, _, _, _, failed⟩
    exact failed
  rw [runStats, Action.runOn_bind, readReports_of_firstUnread first]
  rcases Report.fault_of_read failed with recovered | number
  · rw [if_pos recovered]
    exact .unreadable first recovered
  · rw [if_neg (UnusableNumber.not_recovered number)]
    exact .unusable first number

theorem runStats_of_allRead {names : List String}
    (allRead : AllRead session.tree (names.map .ofString) reports) :
    (runStats names).runOn session =
      match Statistics.ofReports (reports.flatMap (·.submissions)) with
      | .error fault => (.error fault, session)
      | .ok statistics =>
          match Json.encode .indented statistics.toData with
          | .error fault => (.error fault, session)
          | .ok text => (.ok .success, session.printed text) := by
  rw [runStats, Action.runOn_bind, readReports_of_allRead allRead]
  simp only [Action.runOn_bind, Action.runOn_ofExcept]
  cases Statistics.ofReports (reports.flatMap (·.submissions)) with
  | error fault => rfl
  | ok statistics =>
      simp only
      cases Json.encode .indented statistics.toData <;> rfl

theorem statsEnd_runStats (names : List String) (session : Session) :
    StatsEnd session (names.map .ofString) ((runStats names).runOn session) := by
  rcases allRead_or_firstUnread session.tree (names.map .ofString) with
    ⟨reports, allRead⟩ | ⟨path, fault, first⟩
  · rw [runStats_of_allRead allRead]
    have returned_iff := Statistics.ofReports_returned_iff (reports.flatMap (·.submissions))
    cases computed : Statistics.ofReports (reports.flatMap (·.submissions)) with
    | error fault =>
        refine .unsummable allRead (fun summable => ?_)
          (Statistics.isRangeFault_of_ofReports computed)
        rcases returned_iff.mpr summable with ⟨statistics, returned⟩
        cases computed.symm.trans returned
    | ok statistics =>
        rcases Statistics.exists_encode computed with ⟨text, written⟩
        simp only [written]
        exact .printed allRead (returned_iff.mp ⟨statistics, computed⟩) computed written
  · exact runStats_of_firstUnread first

/-- There are statistics of results exactly if what they add up stays in the range of the floats. So
the command prints statistics, notes that a report is missing or broken, or ends in a fault: a
report that is not read holds a number that cannot be used, or all are read and their scores have no
statistics. -/
theorem runStats_ends (names : List String) (session : Session) :
    StatsEnd session (names.map .ofString) ((runStats names).runOn session) ∧
      ∀ submissions, (∃ statistics, Statistics.ofReports submissions = .ok statistics) ↔
        Statistics.Summable (Statistics.rankedEntries submissions) :=
  ⟨statsEnd_runStats names session, Statistics.ofReports_returned_iff⟩

/-- A report whose only score is not a number. -/
def numberlessText : String :=
  "\x7b\"submissions\":[\x7b\"scores\":\x7b\"codeQuality\":NaN\x7d\x7d]\x7d"

/-- What the statistics use of it: scores that are left out are neutral. -/
def numberlessEntry : ScoredEntry where
  submittedAt := ""
  language := ""
  scores :=
    ⟨.float .nan, .float (.ofInt 50), .float (.ofInt 50), .float (.ofInt 50), .float (.ofInt 50)⟩
  devScore := .int 0

/-- A session with that report. -/
def numberlessSession : Session where
  tree := Report.treeWith numberlessText

/-- The report is read, but it has no statistics, and the command ends in the fault. -/
theorem runStats_notANumber :
    (∃ report, Report.read numberlessSession.tree (.ofString "report.json") = .ok report ∧
      Statistics.ofReports report.submissions = .error .nanToInteger) ∧
    (runStats ["report.json"]).runOn numberlessSession =
      (.error .nanToInteger, numberlessSession) := by
  have readable :
      numberlessSession.tree.readText (.ofString "report.json") = .ok numberlessText.toList := by
    decide +kernel
  have checked : ∃ report, Report.decode numberlessText = .ok report ∧
      report.submissions.map (·.entry) = [numberlessEntry] := by
    decide +kernel
  have broken : Statistics.breakdown [numberlessEntry] = .error .nanToInteger := by
    decide +kernel
  rcases checked with ⟨report, decoded, single⟩
  have read : Report.read numberlessSession.tree (.ofString "report.json") = .ok report := by
    simp only [Report.read, readable, bind, Except.bind, String.ofList_toList, decoded]
  have computed : Statistics.ofReports report.submissions = .error .nanToInteger := by
    rw [Statistics.ofReports, single, Statistics.ofEntries, Statistics.newestFirst,
      List.mergeSort_singleton]
    simp only [List.head?_cons, broken]
    rfl
  have allRead : AllRead numberlessSession.tree (["report.json"].map .ofString) [report] :=
    .cons read .nil
  refine ⟨⟨report, read, computed⟩, ?_⟩
  rw [runStats_of_allRead allRead, List.flatMap_singleton, computed]

end Command

end Scorecard
