import Scorecard.Proofs.CommandLine.Frame
import Scorecard.Proofs.Report.Ranking
import Scorecard.Proofs.Timestamp

/-!
# The moments of a run for scores

Every entry of a run's report goes with a moment: a file with the one of its last change, and the
standard input with the one of the run. The entry shows it as a text, and the statistics order the
entries by these texts. As long as the moments lie between the start of 1970 and the end of the year
9999, that is the order of the moments, the latest first, with entries of one moment in the order in
which they were gathered.
-/

namespace Scorecard

namespace Action

variable {α β : Type} {tree : FileTree} {action : Action α} {property : α → Prop}
  {result : β → Prop}

/-- On the given files the computation answers with values of the given kind only, and then it has
left the files as they are. -/
def AnswersOn (tree : FileTree) (action : Action α) (property : α → Prop) : Prop :=
  ∀ session value later, session.tree = tree → action.runOn session = (.ok value, later) →
    property value ∧ later.tree = tree

theorem AnswersOn.bind {next : α → Action β} (answers : AnswersOn tree action property)
    (rest : ∀ value, property value → AnswersOn tree (next value) result) :
    AnswersOn tree (action >>= next) result := by
  intro session value last starts ran
  rcases runOn_bind_eq_ok_iff.mp ran with ⟨found, later, reached, finished⟩
  rcases answers session found later starts reached with ⟨holds, kept⟩
  exact rest found holds later value last kept finished

theorem AnswersOn.mono {other : α → Prop} (answers : AnswersOn tree action property)
    (weaker : ∀ value, property value → other value) : AnswersOn tree action other := by
  intro session value later starts ran
  exact (answers session value later starts ran).imp_left (weaker value)

theorem AnswersOn.ite {condition : Prop} [Decidable condition] {other : Action α}
    (answers : AnswersOn tree action property) (otherAnswers : AnswersOn tree other property) :
    AnswersOn tree (if condition then action else other) property := by
  split
  · exact answers
  · exact otherAnswers

theorem answersOn_pure {value : α} (holds : property value) :
    AnswersOn tree (pure value) property := by
  intro session found later starts ran
  cases ran
  exact ⟨holds, starts⟩

theorem answersOn_throw (fault : Fault) : AnswersOn tree (throw fault) property := by
  intro session found later starts ran
  cases ran

theorem answersOn_tree : AnswersOn tree Action.tree (· = tree) := by
  intro session found later starts ran
  cases ran
  exact ⟨starts, starts⟩

theorem answersOn_ofExcept (answer : Except Fault α) :
    AnswersOn tree (ofExcept answer) (answer = .ok ·) := by
  intro session found later starts ran
  rw [runOn_ofExcept, Prod.mk.injEq] at ran
  exact ⟨ran.1, ran.2 ▸ starts⟩

theorem KeepsTree.answersOn (keeps : action.KeepsTree) : AnswersOn tree action fun _ => True :=
  fun session value later starts ran =>
    ⟨trivial, (keeps.keepsTreeFor value session later ran).trans starts⟩

end Action

/-- The code with a label was last changed at a moment. The standard input takes the moment of the
run. -/
inductive ChangedAt (tree : FileTree) (root : Path) (now : ℤ) : String → ℤ → Prop
  | file {path : Path} {content : List UInt8} {moment : ℤ}
      (read : tree.readFile path = .ok (content, moment)) :
      ChangedAt tree root now (labelOf tree root path) moment
  | input : ChangedAt tree root now "<stdin>" now

/-- A moment of a change is that of the run or stands in the files. -/
theorem ChangedAt.mem_nodes {tree : FileTree} {root : Path} {now moment : ℤ} {label : String}
    (changed : ChangedAt tree root now label moment) :
    moment = now ∨ ∃ place content, (place, Node.file content moment) ∈ tree.nodes := by
  cases changed with
  | input => exact .inl rfl
  | @file path content _ read =>
      right
      rw [FileTree.readFile] at read
      split at read
      · cases read
      · next place _ =>
          split at read
          · next held found =>
              cases read
              rw [FileTree.node?] at found
              split at found
              · cases found
              · rcases List.lookup_eq_some_iff.mp found with ⟨front, back, nodes_eq, -⟩
                exact ⟨place, content, by rw [nodes_eq]; simp⟩
          · cases read

/-- The submission is of code that was last changed at the moment and shows it, or shows no time in
place of that of the run. -/
def Submission.Dated (tree : FileTree) (root : Path) (now : ℤ) (submission : Submission)
    (moment : ℤ) : Prop :=
  ChangedAt tree root now submission.label moment ∧
    (Timestamp.render moment = .ok submission.submittedAt ∨
      moment = now ∧ submission.submittedAt = "")

/-- The entry is of code that was last changed at the moment and shows it. -/
def SubmissionReport.Dated (tree : FileTree) (root : Path) (now : ℤ) (entry : SubmissionReport)
    (moment : ℤ) : Prop :=
  ChangedAt tree root now entry.label moment ∧ Timestamp.render moment = .ok entry.submittedAt

/-- Each of the submissions has a moment. -/
def AllDated (tree : FileTree) (root : Path) (now : ℤ) (submissions : List Submission) : Prop :=
  ∃ moments, List.Forall₂ (Submission.Dated tree root now) submissions moments

/-- Each of the submissions, if any have been gathered, has a moment. -/
def GatheredDated (tree : FileTree) (root : Path) (now : ℤ) (gathered : Option (List Submission)) :
    Prop :=
  ∀ submissions ∈ gathered, AllDated tree root now submissions

section Gathering

open Scorecard.Action

variable (tree : FileTree) (root : Path) (now : ℤ)

theorem exists_dated_of_submissionOfFile {language : Option String} {interviewMode : Bool}
    {path : Path} {submission : Submission}
    (returned : submissionOfFile tree root language interviewMode path = .ok submission) :
    ∃ moment, submission.Dated tree root now moment := by
  rcases bind_eq_ok_iff.mp returned with ⟨text, -, returned⟩
  rcases bind_eq_ok_iff.mp returned with ⟨⟨content, moment⟩, read, returned⟩
  rcases bind_eq_ok_iff.mp returned with ⟨stamp, rendered, returned⟩
  cases returned
  exact ⟨moment, .file read, .inl rendered⟩

theorem answersOn_submissionsOfFiles (language : Option String) (interviewMode : Bool)
    (paths : List Path) :
    AnswersOn tree (submissionsOfFiles root language interviewMode paths)
      (AllDated tree root now) := by
  induction paths with
  | nil => exact answersOn_pure ⟨[], .nil⟩
  | cons path paths ih =>
      rw [submissionsOfFiles]
      refine answersOn_tree.bind ?_
      rintro _ rfl
      split
      · next submission returned =>
          refine ih.bind fun submissions rest => answersOn_pure ?_
          rcases exists_dated_of_submissionOfFile _ root now returned with ⟨moment, dated⟩
          rcases rest with ⟨moments, each⟩
          exact ⟨moment :: moments, .cons dated each⟩
      · exact ((keepsTree_note _).answersOn.bind fun _ _ => ih).ite (answersOn_throw _)

/-- The standard input takes the moment of the run. -/
theorem answersOn_submissionOfInput (surroundings : Surroundings) (language : String)
    (interviewMode : Bool) :
    AnswersOn tree
      (Action.ofExcept ((submissionOfInput surroundings language interviewMode).map ([·])))
      (AllDated tree root now) := by
  refine (answersOn_ofExcept _).mono fun submissions returned => ?_
  cases read : submissionOfInput surroundings language interviewMode with
  | error fault =>
      rw [read] at returned
      cases returned
  | ok submission =>
      rw [read] at returned
      cases returned
      rcases bind_eq_ok_iff.mp read with ⟨text, -, made⟩
      cases made
      exact ⟨[now], .cons ⟨.input, .inr ⟨rfl, rfl⟩⟩ .nil⟩

/-- Whatever a selection stands for, every submission of it has a moment. -/
theorem answersOn_gatherSubmissions (surroundings : Surroundings) (selection : Selection)
    (config : Config) (interviewMode : Bool) :
    AnswersOn tree (gatherSubmissions surroundings selection config root interviewMode)
      (GatheredDated tree root now) := by
  have none : AnswersOn tree (pure none) (GatheredDated tree root now) := by
    apply answersOn_pure
    simp [GatheredDated]
  have found :
      ∀ (fromInput : List Submission) (files : List Path), AllDated tree root now fromInput →
        AnswersOn tree (do
          let submissions :=
            fromInput ++ (← submissionsOfFiles root selection.language interviewMode files)
          if submissions.isEmpty then note .nothingSelected
          return some submissions) (GatheredDated tree root now) := by
    rintro fromInput files ⟨moments, each⟩
    refine (answersOn_submissionsOfFiles tree root now _ _ files).bind ?_
    rintro fromFiles ⟨otherMoments, otherEach⟩
    have chosen :
        AnswersOn tree (pure (some (fromInput ++ fromFiles))) (GatheredDated tree root now) := by
      apply answersOn_pure
      rintro _ ⟨⟩
      exact ⟨moments ++ otherMoments, List.rel_append each otherEach⟩
    exact ((keepsTree_note _).answersOn.bind fun _ _ => chosen).ite chosen
  refine ((keepsTree_note _).answersOn.bind fun _ _ => none).ite ?_
  have noInput : AnswersOn tree (pure []) (AllDated tree root now) := answersOn_pure ⟨[], .nil⟩
  refine AnswersOn.ite
    ((answersOn_submissionOfInput tree root now _ _ _).bind fun fromInput dated => ?_)
    (noInput.bind fun fromInput dated => ?_) <;>
  · refine answersOn_tree.bind ?_
    rintro _ rfl
    refine ((keepsTree_forM fun _ => keepsTree_note _).answersOn.bind fun _ _ => none).ite ?_
    refine ((keepsTree_pure _).answersOn.bind fun files _ => ?_).ite
      ((keepsTree_ofExcept _).answersOn.bind fun files _ => ?_) <;>
    exact found fromInput files dated

end Gathering

namespace Statistics

/-- The entries in the order of the moments that go with them, the latest first; entries of one
moment keep their order. -/
def latestFirst (entries : List ScoredEntry) (moments : List ℤ) : List ScoredEntry :=
  ((entries.zip moments).mergeSort fun left right => right.2 ≤ left.2).map (·.1)

/-- Entries that show moments of the calendar are ranked by these moments. -/
theorem newestFirst_eq_latestFirst {entries : List ScoredEntry} {moments : List ℤ}
    (shown : List.Forall₂ (fun entry moment => Timestamp.render moment = .ok entry.submittedAt)
      entries moments)
    (inRange : ∀ moment ∈ moments, 0 ≤ moment ∧ moment ≤ Timestamp.lastSecond) :
    newestFirst entries = latestFirst entries moments := by
  rcases List.forall₂_iff_zip.mp shown with ⟨length, shown⟩
  have paired : (entries.zip moments).map (·.1) = entries := List.map_fst_zip length.le
  have ordered : ∀ left ∈ entries.zip moments, ∀ right ∈ entries.zip moments,
      decide (right.2 ≤ left.2) = mayPrecede left.1 right.1 := by
    intro left leftMem right rightMem
    rcases inRange _ (List.of_mem_zip leftMem).2 with ⟨leftNonneg, leftBound⟩
    rcases inRange _ (List.of_mem_zip rightMem).2 with ⟨rightNonneg, rightBound⟩
    have order :=
      Timestamp.lt_iff_of_render leftNonneg leftBound rightNonneg rightBound (shown leftMem)
        (shown rightMem)
    rw [Bool.eq_iff_iff, decide_eq_true_iff, mayPrecede_iff, ← not_lt, ← not_lt, order]
  rw [latestFirst, List.map_mergeSort ordered, paired]
  rfl

end Statistics

namespace Command

open Scorecard.Action

variable {tree : FileTree} {root : Path} {now : ℤ}

/-- The entry of a submission in a report, which shows the time of the report if the submission
shows none. -/
def entryOf (generatedAt : String) (submission : Submission) (result : EvaluationResult) :
    SubmissionReport where
  label := submission.label
  submittedAt := if submission.submittedAt = "" then generatedAt else submission.submittedAt
  result := result

variable {generatedAt : String} (generated : Timestamp.render now = .ok generatedAt)

include generated

theorem dated_entryOf {submission : Submission} {moment : ℤ}
    (dated : submission.Dated tree root now moment) (result : EvaluationResult) :
    (entryOf generatedAt submission result).Dated tree root now moment := by
  rcases dated with ⟨changed, rendered | ⟨rfl, unknown⟩⟩
  · refine ⟨changed, ?_⟩
    rw [entryOf, if_neg (Timestamp.render_ne_empty rendered)]
    exact rendered
  · refine ⟨changed, ?_⟩
    rw [entryOf, if_pos unknown]
    exact generated

theorem exists_dated_entries {submissions : List Submission}
    (dated : AllDated tree root now submissions) (results : List EvaluationResult) :
    ∃ moments, List.Forall₂ (SubmissionReport.Dated tree root now)
      ((submissions.zip results).map fun pair => entryOf generatedAt pair.1 pair.2) moments := by
  rcases dated with ⟨moments, each⟩
  induction each generalizing results with
  | nil => exact ⟨[], .nil⟩
  | @cons submission moment submissions moments first _ ih =>
      cases results with
      | nil => exact ⟨[], .nil⟩
      | cons result results =>
          rcases ih results with ⟨others, rest⟩
          exact ⟨moment :: others, .cons (dated_entryOf generated first result) rest⟩

omit generated

theorem exists_dated_of_reportOn {submissions : List Submission} {results : List EvaluationResult}
    {report : Report} (dated : AllDated tree root now submissions)
    (reported : reportOn now submissions results = .ok report) :
    (∃ moments, List.Forall₂ (SubmissionReport.Dated tree root now) report.submissions moments) ∧
      ∃ statistics, report.statistics = some statistics ∧
        Statistics.ofReports report.submissions = .ok statistics := by
  rcases bind_eq_ok_iff.mp reported with ⟨generatedAt, generated, reported⟩
  rcases bind_eq_ok_iff.mp reported with ⟨statistics, computed, reported⟩
  cases reported
  exact ⟨exists_dated_entries generated dated results, statistics, rfl, computed⟩

/-- The report of a run for scores, with the moments of its entries. -/
theorem exists_dated_of_deliverScores {surroundings : Surroundings} {selection : Selection}
    {evaluation : Option String} {interview : Bool} {markdownPath : Option String}
    {session later : Session} {report : Report} {config : Config}
    (ran : (deliverScores surroundings selection evaluation interview markdownPath).runOn session =
      (.ok (some (report, config)), later)) :
    (∃ moments, List.Forall₂
        (SubmissionReport.Dated session.tree (selection.rootIn session.tree) surroundings.now)
        report.submissions moments) ∧
      ∃ statistics, report.statistics = some statistics ∧
        Statistics.ofReports report.submissions = .ok statistics := by
  rw [deliverScores] at ran
  rcases runOn_bind_eq_ok_iff.mp ran with ⟨tree, first, reached, ran⟩
  cases reached
  rcases runOn_bind_eq_ok_iff.mp ran with ⟨loaded, second, reached, ran⟩
  have kept := (keepsTree_loadConfig _ _).keepsTreeFor _ _ _ reached
  dsimp only at ran
  split at ran
  · rcases runOn_bind_eq_ok_iff.mp ran with ⟨_, _, _, ran⟩
    cases ran
  · rcases runOn_bind_eq_ok_iff.mp ran with ⟨gathered, third, reached, ran⟩
    rcases answersOn_gatherSubmissions _ _ surroundings.now _ _ _ _ _ _ _ kept reached with
      ⟨dated, -⟩
    cases gathered with
    | none => cases ran
    | some submissions =>
        rcases runOn_bind_eq_ok_iff.mp ran with ⟨evaluator, fourth, -, ran⟩
        rcases runOn_bind_eq_ok_iff.mp ran with ⟨files, fifth, -, ran⟩
        rcases runOn_bind_eq_ok_iff.mp ran with ⟨results, sixth, -, ran⟩
        rcases runOn_bind_eq_ok_iff.mp ran with ⟨made, seventh, reported, ran⟩
        rcases runOn_bind_eq_ok_iff.mp ran with ⟨_, _, -, ran⟩
        rw [runOn_ofExcept, Prod.mk.injEq] at reported
        have assembled := exists_dated_of_reportOn (dated submissions rfl) reported.1
        cases ran
        exact assembled

/-- Up to the end of the year 9999 the texts of instants stand in the order of the instants and
determine them. So the statistics of a run for scores rank its entries by the moments of their last
change. -/
theorem deliverScores_latestFirst :
    (∀ first second, 0 ≤ first → first ≤ Timestamp.lastSecond → 0 ≤ second →
      second ≤ Timestamp.lastSecond →
      ∃ text other, Timestamp.render first = .ok text ∧ Timestamp.render second = .ok other ∧
        (text < other ↔ first < second) ∧ (text = other ↔ first = second)) ∧
    ∀ surroundings selection evaluation interview markdownPath session report config later,
      (deliverScores surroundings selection evaluation interview markdownPath).runOn session =
        (.ok (some (report, config)), later) →
      ∃ moments statistics, report.statistics = some statistics ∧
        List.Forall₂
          (SubmissionReport.Dated session.tree (selection.rootIn session.tree) surroundings.now)
          report.submissions moments ∧
        ((∀ moment ∈ moments, 0 ≤ moment ∧ moment ≤ Timestamp.lastSecond) →
          Statistics.newestFirst (report.submissions.map (·.entry)) =
            Statistics.latestFirst (report.submissions.map (·.entry)) moments ∧
          Statistics.OfRanks (Statistics.latestFirst (report.submissions.map (·.entry)) moments)
            statistics) := by
  constructor
  · intro first second nonneg bound nonnegToo boundToo
    rcases Timestamp.exists_render nonneg bound with ⟨text, rendered⟩
    rcases Timestamp.exists_render nonnegToo boundToo with ⟨other, renderedToo⟩
    have less := Timestamp.lt_iff_of_render nonneg bound nonnegToo boundToo rendered renderedToo
    have greater := Timestamp.lt_iff_of_render nonnegToo boundToo nonneg bound renderedToo rendered
    refine ⟨text, other, rendered, renderedToo, less, ?_⟩
    rw [eq_iff_le_not_lt, eq_iff_le_not_lt, ← not_lt, ← not_lt, less, greater]
  · intro surroundings selection evaluation interview markdownPath session report config later ran
    rcases exists_dated_of_deliverScores ran with ⟨⟨moments, dated⟩, statistics, held, computed⟩
    refine ⟨moments, statistics, held, dated, fun inRange => ?_⟩
    have shown : List.Forall₂ (fun entry moment => Timestamp.render moment = .ok entry.submittedAt)
        (report.submissions.map (·.entry)) moments := by
      rw [List.forall₂_map_left_iff]
      exact dated.imp fun _ _ => And.right
    have ranked := Statistics.newestFirst_eq_latestFirst shown inRange
    refine ⟨ranked, ?_⟩
    rw [← ranked]
    exact Statistics.ofRanks_of_ofEntries computed

/-- A file that was last changed on a leap day. -/
def leapDaySession : Session where
  tree := {
    workingDirectory := ["work"]
    nodes := [(["work"], .directory),
      (["work", "leap.js"], .file (Utf8.encode "eval(x);".toList) 951782400)] }

/-- The first moment of a leap day comes after the last one of the day before, and a run for scores
ranks a file by it. -/
theorem deliverScores_latestFirst_leapDay :
    (∃ text other, Timestamp.render 951782399 = .ok text ∧ Timestamp.render 951782400 = .ok other ∧
      text < other) ∧
    ∃ report config later moments statistics,
      (deliverScores { input := [], now := 1704164645 } { targets := ["leap.js"] } none false
        none).runOn leapDaySession = (.ok (some (report, config)), later) ∧
      (∀ moment ∈ moments, 0 ≤ moment ∧ moment ≤ Timestamp.lastSecond) ∧
      Statistics.newestFirst (report.submissions.map (·.entry)) =
        Statistics.latestFirst (report.submissions.map (·.entry)) moments ∧
      Statistics.OfRanks (Statistics.latestFirst (report.submissions.map (·.entry)) moments)
        statistics := by
  constructor
  · rcases deliverScores_latestFirst.1 951782399 951782400 (by decide) (by decide) (by decide)
      (by decide) with ⟨text, other, rendered, renderedToo, less, -⟩
    exact ⟨text, other, rendered, renderedToo, less.mpr (by decide)⟩
  · have delivers :
        ((deliverScores { input := [], now := 1704164645 } { targets := ["leap.js"] } none false
          none).runOn leapDaySession).1.toOption.join.isSome = true := by
      decide +kernel
    rcases ran : (deliverScores { input := [], now := 1704164645 } { targets := ["leap.js"] } none
      false none).runOn leapDaySession with ⟨_ | _ | ⟨report, config⟩, later⟩
    · rw [ran] at delivers
      cases delivers
    · rw [ran] at delivers
      cases delivers
    · rcases deliverScores_latestFirst.2 _ _ _ _ _ _ _ _ _ ran with
        ⟨moments, statistics, held, dated, ranked⟩
      have inRange : ∀ moment ∈ moments, 0 ≤ moment ∧ moment ≤ Timestamp.lastSecond := by
        refine forall_of_forall₂ dated ?_
        rintro entry moment ⟨changed, -⟩
        rcases changed.mem_nodes with rfl | ⟨place, content, mem⟩
        · decide
        · simp only [leapDaySession, List.mem_cons, Prod.mk.injEq, reduceCtorEq, and_false,
            false_or, Node.file.injEq, List.not_mem_nil, or_false] at mem
          rw [mem.2.2]
          decide
      exact ⟨report, config, later, moments, statistics, rfl, inRange, ranked inRange⟩

end Command

end Scorecard
