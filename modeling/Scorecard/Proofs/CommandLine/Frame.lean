import Scorecard.CommandLine.Invocation
import Scorecard.Proofs.Session

/-!
# What a command leaves alone when it fails

Every step of a command either writes outputs or leaves the files as they are, and a command fails
only between steps of the second kind. The one exception is a command for scores: its report is
delivered before its scores are held against the threshold. So that command is taken apart there.
What comes before does not know the threshold, and what comes after only adds notices.
-/

namespace Scorecard

namespace Action

variable {α β : Type} {action : Action α}

/-- However it ends, the computation leaves the files as they are. -/
def KeepsTree (action : Action α) : Prop :=
  ∀ session, (action.runOn session).2.tree = session.tree

theorem keepsTree_pure (value : α) : KeepsTree (pure value) :=
  fun _ => rfl

theorem keepsTree_throw (fault : Fault) : KeepsTree (throw fault : Action α) :=
  fun _ => rfl

theorem keepsTree_tree : tree.KeepsTree :=
  fun _ => rfl

theorem keepsTree_note (notice : Notice) : (note notice).KeepsTree :=
  fun _ => rfl

theorem keepsTree_print (text : String) : (print text).KeepsTree :=
  fun _ => rfl

theorem keepsTree_ofExcept (answer : Except Fault α) : (ofExcept answer).KeepsTree := by
  intro session
  rw [runOn_ofExcept]

theorem keepsTree_ofRecorded (computation : Recorded α) : (ofRecorded computation).KeepsTree := by
  intro session
  rw [runOn_ofRecorded]

theorem KeepsTree.bind {next : α → Action β} (keeps : action.KeepsTree)
    (nextKeeps : ∀ value, (next value).KeepsTree) : KeepsTree (action >>= next) := by
  intro session
  have kept := keeps session
  rw [runOn_bind]
  rcases reached : action.runOn session with ⟨_ | value, later⟩
  · rwa [reached] at kept
  · rw [reached] at kept
    exact (nextKeeps value later).trans kept

theorem KeepsTree.ite {condition : Prop} [Decidable condition] {other : Action α}
    (keeps : action.KeepsTree) (otherKeeps : other.KeepsTree) :
    KeepsTree (if condition then action else other) := by
  split
  · exact keeps
  · exact otherKeeps

theorem keepsTree_forM {items : List α} {each : α → Action Unit}
    (keeps : ∀ item, (each item).KeepsTree) : KeepsTree (items.forM each) := by
  induction items with
  | nil => exact keepsTree_pure _
  | cons item items ih => exact (keeps item).bind fun _ => ih

theorem runOn_forM_note (items : List α) (notice : α → Notice) (session : Session) :
    ∃ journal, (items.forM fun item => note (notice item)).runOn session =
      (.ok (), { session with journal }) := by
  induction items generalizing session with
  | nil => exact ⟨session.journal, rfl⟩
  | cons item items ih =>
      rcases ih (session.noted (notice item)) with ⟨journal, noted⟩
      exact ⟨journal, noted⟩

/-- If it ends with the answer, the computation leaves the files as they are. -/
def KeepsTreeFor (action : Action α) (answer : α) : Prop :=
  ∀ session later, action.runOn session = (.ok answer, later) → later.tree = session.tree

theorem KeepsTree.keepsTreeFor (keeps : action.KeepsTree) (answer : α) :
    action.KeepsTreeFor answer := by
  intro session later ended
  have kept := keeps session
  rwa [ended] at kept

theorem KeepsTree.bind_keepsTreeFor {next : α → Action β} {answer : β} (keeps : action.KeepsTree)
    (nextKeeps : ∀ value, (next value).KeepsTreeFor answer) :
    KeepsTreeFor (action >>= next) answer := by
  intro session last ended
  have kept := keeps session
  rcases runOn_bind_eq_ok_iff.mp ended with ⟨value, later, reached, rest⟩
  rw [reached] at kept
  exact (nextKeeps value later last rest).trans kept

/-- An answer that is never given is given only where the files are as they were. -/
theorem keepsTreeFor_of_ne {given answer : β} (differ : given ≠ answer) :
    KeepsTreeFor (action >>= fun _ => pure given) answer := by
  intro session last ended
  rcases runOn_bind_eq_ok_iff.mp ended with ⟨value, later, _, rest⟩
  rw [runOn_pure, Prod.mk.injEq, Except.ok.injEq] at rest
  exact absurd rest.1 differ

end Action

section Gathering

open Scorecard.Action

variable (surroundings : Surroundings) (selection : Selection) (root : Path)

theorem keepsTree_submissionsOfFiles (language : Option String) (interviewMode : Bool)
    (paths : List Path) : (submissionsOfFiles root language interviewMode paths).KeepsTree := by
  induction paths with
  | nil => exact keepsTree_pure _
  | cons path paths ih =>
      rw [submissionsOfFiles]
      refine keepsTree_tree.bind fun tree => ?_
      split
      · exact ih.bind fun _ => keepsTree_pure _
      · exact ((keepsTree_note _).bind fun _ => ih).ite (keepsTree_throw _)

theorem keepsTree_gatherSubmissions (config : Config) (interviewMode : Bool) :
    (gatherSubmissions surroundings selection config root interviewMode).KeepsTree := by
  have chosen : ∀ submissions : List Submission, KeepsTree (do
      if submissions.isEmpty then note .nothingSelected
      return some submissions) := by
    intro submissions
    exact ((keepsTree_note _).bind fun _ => keepsTree_pure _).ite (keepsTree_pure _)
  have found : ∀ (fromInput : List Submission) (files : List Path), KeepsTree (do
      let submissions :=
        fromInput ++ (← submissionsOfFiles root selection.language interviewMode files)
      if submissions.isEmpty then note .nothingSelected
      return some submissions) := by
    intro fromInput files
    exact (keepsTree_submissionsOfFiles root _ _ files).bind fun _ => chosen _
  refine ((keepsTree_note _).bind fun _ => keepsTree_pure _).ite ?_
  refine KeepsTree.ite ((keepsTree_ofExcept _).bind fun fromInput => ?_)
    ((keepsTree_pure _).bind fun fromInput => ?_) <;>
  · refine keepsTree_tree.bind fun tree => ?_
    refine ((keepsTree_forM fun _ => keepsTree_note _).bind fun _ => keepsTree_pure _).ite ?_
    refine ((keepsTree_pure _).bind fun files => ?_).ite
      ((keepsTree_ofExcept _).bind fun files => ?_) <;>
    exact found fromInput files

end Gathering

namespace Command

open Scorecard.Action

variable (surroundings : Surroundings) (selection : Selection)

theorem keepsTree_loadConfig (root : Path) (configs : List String) :
    (loadConfig root configs).KeepsTree :=
  keepsTree_tree.bind fun _ => keepsTree_ofRecorded _

theorem keepsTree_evaluatorOf (evaluation : Option String) :
    (evaluatorOf surroundings evaluation).KeepsTree := by
  rw [evaluatorOf]
  split
  · exact (keepsTree_note _).bind fun _ => keepsTree_pure _
  · exact ((keepsTree_ofExcept _).bind fun _ => keepsTree_pure _).ite (keepsTree_pure _)

theorem keepsTree_readReports (paths : List Path) : (readReports paths).KeepsTree := by
  induction paths with
  | nil => exact keepsTree_pure _
  | cons path paths ih =>
      rw [readReports]
      refine keepsTree_tree.bind fun tree => ?_
      split
      · exact ih.bind fun _ => keepsTree_pure _
      · exact ((keepsTree_note _).bind fun _ => keepsTree_pure _).ite (keepsTree_throw _)

theorem keepsTreeFor_runAnalyze : (runAnalyze surroundings selection).KeepsTreeFor .failure := by
  rw [runAnalyze]
  refine keepsTree_tree.bind_keepsTreeFor fun tree => ?_
  refine (keepsTree_loadConfig _ _).bind_keepsTreeFor fun config => ?_
  refine (keepsTree_gatherSubmissions _ _ _ _ _).bind_keepsTreeFor fun gathered => ?_
  cases gathered with
  | none => exact (keepsTree_pure _).keepsTreeFor _
  | some submissions => exact (keepsTree_ofRecorded _).bind_keepsTreeFor fun _ =>
      keepsTreeFor_of_ne (by decide)

theorem keepsTreeFor_runPrompt (interview : Bool) :
    (runPrompt surroundings selection interview).KeepsTreeFor .failure := by
  rw [runPrompt]
  refine keepsTree_tree.bind_keepsTreeFor fun tree => ?_
  refine (keepsTree_loadConfig _ _).bind_keepsTreeFor fun config => ?_
  refine (keepsTree_gatherSubmissions _ _ _ _ _).bind_keepsTreeFor fun gathered => ?_
  cases gathered with
  | none => exact (keepsTree_pure _).keepsTreeFor _
  | some submissions => exact (keepsTree_ofRecorded _).bind_keepsTreeFor fun _ =>
      keepsTreeFor_of_ne (by decide)

theorem keepsTree_runStats (reports : List String) : (runStats reports).KeepsTree := by
  rw [runStats]
  refine (keepsTree_readReports _).bind fun entries => ?_
  cases entries with
  | none => exact keepsTree_pure _
  | some entries =>
      refine (keepsTree_ofExcept _).bind fun statistics => ?_
      exact (keepsTree_ofExcept _).bind fun _ => (keepsTree_print _).bind fun _ => keepsTree_pure _

theorem keepsTreeFor_runShowConfig (now : Int) (path : String) (configs : List String)
    (output : Option String) : (runShowConfig now path configs output).KeepsTreeFor .failure := by
  rw [runShowConfig]
  refine keepsTree_tree.bind_keepsTreeFor fun tree => ?_
  refine (keepsTree_loadConfig _ _).bind_keepsTreeFor fun config => ?_
  refine (keepsTree_ofExcept _).bind_keepsTreeFor fun text => ?_
  simp only
  split
  · exact keepsTreeFor_of_ne (by decide)
  · exact keepsTreeFor_of_ne (by decide)

theorem keepsTree_runValidateConfig (path : String) (configs : List String) :
    (runValidateConfig path configs).KeepsTree := by
  rw [runValidateConfig]
  refine keepsTree_tree.bind fun tree => ?_
  refine ((keepsTree_note _).bind fun _ => keepsTree_pure _).ite ?_
  refine (keepsTree_ofExcept _).bind fun findings => ?_
  refine ((keepsTree_note _).bind fun _ => keepsTree_pure _).ite ?_
  exact (keepsTree_forM fun _ => keepsTree_note _).bind fun _ => keepsTree_pure _

theorem keepsTreeFor_runInit (now : Int) (path : String) (output : Option String)
    (preset : Template) (force : Bool) :
    (runInit now path output preset force).KeepsTreeFor .failure := by
  rw [runInit]
  refine keepsTree_tree.bind_keepsTreeFor fun tree => ?_
  simp only
  split
  · exact ((keepsTree_note _).bind fun _ => keepsTree_pure _).keepsTreeFor _
  · rw [← bind_assoc]
    exact keepsTreeFor_of_ne (by decide)

/-- The command with no threshold in force. -/
def runUngated : Command → Action Exit
  | .score selection evaluation interview markdownPath _ _ =>
      runScoreUnder (fun _ => none) surroundings selection evaluation interview markdownPath
  | command => command.run surroundings

/-- If nothing is scored, the files are as they were. -/
theorem keepsTreeFor_deliverScores (evaluation : Option String) (interview : Bool)
    (markdownPath : Option String) :
    (deliverScores surroundings selection evaluation interview markdownPath).KeepsTreeFor none := by
  rw [deliverScores]
  refine keepsTree_tree.bind_keepsTreeFor fun tree => ?_
  refine (keepsTree_loadConfig _ _).bind_keepsTreeFor fun config => ?_
  simp only
  split
  · exact ((keepsTree_note _).bind fun _ => keepsTree_pure _).keepsTreeFor _
  · refine (keepsTree_gatherSubmissions _ _ _ _ _).bind_keepsTreeFor fun gathered => ?_
    cases gathered with
    | none => exact (keepsTree_pure _).keepsTreeFor _
    | some submissions =>
        refine (keepsTree_evaluatorOf _ _).bind_keepsTreeFor fun evaluator => ?_
        refine keepsTree_tree.bind_keepsTreeFor fun tree => ?_
        refine (keepsTree_ofRecorded _).bind_keepsTreeFor fun results => ?_
        exact (keepsTree_ofExcept _).bind_keepsTreeFor fun report => keepsTreeFor_of_ne (by simp)

/-- No entry of a report is below the threshold, if there is one. -/
def Passes (report : Report) (threshold : Option Int) : Prop :=
  ∀ least ∈ threshold, ∀ entry ∈ report.submissions, least ≤ entry.result.devScore

/-- Holding a report against a threshold adds notices and nothing else. -/
theorem runOn_gate (report : Report) (threshold : Option Int) (session : Session) :
    ∃ exit journal, (gate report threshold).runOn session = (.ok exit, { session with journal }) ∧
      (exit = .success ↔ Passes report threshold) := by
  cases threshold with
  | none => exact ⟨.success, session.journal, rfl, by simp [Passes]⟩
  | some least =>
      rcases runOn_forM_note (entriesBelow report least) (fun entry =>
        .belowThreshold (labelOrDefault entry.label) entry.result.devScore least) session with
        ⟨journal, noted⟩
      refine ⟨if (entriesBelow report least).isEmpty then .success else .failure, journal, ?_, ?_⟩
      · rw [gate.eq_def]
        simp only [runOn_bind, noted, runOn_pure]
      · simp [entriesBelow, Passes]

/-- A command for scores that has delivered its report, with the threshold in force: that of the
command line, or else that of the configuration. -/
inductive Completes (session : Session) : Command → Report → Option Int → Prop
  | delivered {selection : Selection} {evaluation : Option String} {interview : Bool}
      {markdownPath : Option String} {failUnder workers : Option Int} {report : Report}
      {config : Config} {later : Session}
      (ran : (deliverScores surroundings selection evaluation interview markdownPath).runOn
        session = (.ok (some (report, config)), later)) :
      Completes session
        (.score selection evaluation interview markdownPath failUnder workers) report
        (failUnder.or config.failUnder)

variable {surroundings} {session : Session}

theorem runOn_runScoreUnder_of_some {evaluation : Option String} {interview : Bool}
    {markdownPath : Option String} {report : Report} {config : Config} {later : Session}
    (ran : (deliverScores surroundings selection evaluation interview markdownPath).runOn session =
      (.ok (some (report, config)), later)) (threshold : Config → Option Int) :
    (runScoreUnder threshold surroundings selection evaluation interview markdownPath).runOn
      session = (gate report (threshold config)).runOn later := by
  rw [runScoreUnder, runOn_bind, ran]

/-- Whatever the threshold, a report that is delivered is the same, and so are the files and the
output. -/
theorem Completes.runOn {command : Command} {report : Report} {threshold : Option Int}
    (completes : Completes surroundings session command report threshold) :
    ∃ exit journal delivered,
      (command.run surroundings).runOn session = (.ok exit, { delivered with journal }) ∧
      (command.runUngated surroundings).runOn session = (.ok .success, delivered) ∧
      (exit = .success ↔ Passes report threshold) := by
  rcases completes with
    @⟨selection, evaluation, interview, markdownPath, failUnder, workers, _, config, later, ran⟩
  rcases runOn_gate report (failUnder.or config.failUnder) later with
    ⟨exit, journal, gated, success_iff⟩
  refine ⟨exit, journal, later, ?_, ?_, success_iff⟩
  · rw [run, runScore, runOn_runScoreUnder_of_some selection ran, gated]
  · rw [runUngated, runOn_runScoreUnder_of_some selection ran]
    rfl

/-- A command that fails has left the files as they are, unless it has delivered a report. -/
theorem tree_of_failure {command : Command} {later : Session}
    (failed : (command.run surroundings).runOn session = (.ok .failure, later)) :
    later.tree = session.tree ∨
      ∃ report threshold, Completes surroundings session command report threshold := by
  cases command with
  | analyze selection => exact .inl (keepsTreeFor_runAnalyze _ _ _ _ failed)
  | prompt selection interview => exact .inl (keepsTreeFor_runPrompt _ _ _ _ _ failed)
  | stats reports => exact .inl ((keepsTree_runStats _).keepsTreeFor _ _ _ failed)
  | showConfig path configs output => exact .inl (keepsTreeFor_runShowConfig _ _ _ _ _ _ failed)
  | validateConfig path configs =>
      exact .inl ((keepsTree_runValidateConfig _ _).keepsTreeFor _ _ _ failed)
  | init path output preset force => exact .inl (keepsTreeFor_runInit _ _ _ _ _ _ _ failed)
  | score selection evaluation interview markdownPath failUnder workers =>
      rw [run, runScore, runScoreUnder] at failed
      rcases runOn_bind_eq_ok_iff.mp failed with ⟨scored, delivered, ran, gated⟩
      cases scored with
      | some scored => exact .inr ⟨scored.1, _, .delivered ran⟩
      | none =>
          rw [runOn_pure] at gated
          cases gated
          exact .inl (keepsTreeFor_deliverScores _ _ _ _ _ _ _ ran)

end Command

namespace CommandLine

variable (surroundings : Surroundings) (session : Session)

theorem invoke_of_accepted {arguments : List String} {command : Command}
    {answer : Except Fault Exit} {later : Session}
    (accepted : Command.ofArguments arguments = .ok command)
    (ran : (command.run surroundings).runOn session = (answer, later)) :
    invoke surroundings session arguments =
      { ending := answer.map Exit.code, session := later } := by
  simp only [invoke, accepted, ran]

/-- What the outcome of a command that has delivered a report owes to the threshold: the number at
the end and nothing of the files and the output, which are those of the command without a
threshold. -/
structure HeldAgainst (threshold : Option Int) (report : Report) (ungated : Session)
    (outcome : Outcome) : Prop where
  ended : outcome.ending = .ok 0 ∨ outcome.ending = .ok 1
  passes : outcome.ending = .ok 0 ↔ Command.Passes report threshold
  tree : outcome.session.tree = ungated.tree
  output : outcome.session.output = ungated.output

theorem invoke_of_completes {arguments : List String} {command : Command}
    (accepted : Command.ofArguments arguments = .ok command) {report : Report}
    {threshold : Option Int}
    (completes : Command.Completes surroundings session command report threshold) :
    HeldAgainst threshold report ((command.runUngated surroundings).runOn session).2
      (invoke surroundings session arguments) := by
  rcases completes.runOn with ⟨exit, journal, delivered, ran, ranUngated, success_iff⟩
  rw [invoke_of_accepted surroundings session accepted ran, ranUngated]
  cases exit with
  | success => exact ⟨.inl rfl, by simpa [Except.map, Exit.code] using success_iff, rfl, rfl⟩
  | failure => exact ⟨.inr rfl, by simpa [Except.map, Exit.code] using success_iff, rfl, rfl⟩

/-- A command that ends with one has left the files as they are, or it has delivered scores of which
one is below the threshold in force. A command that has delivered scores ends with zero exactly if
none is below the threshold, and leaves the files and the output of the command without a
threshold. -/
theorem invoke_frame {arguments : List String} {command : Command}
    (accepted : Command.ofArguments arguments = .ok command) :
    let outcome := invoke surroundings session arguments
    let ungated := ((command.runUngated surroundings).runOn session).2
    (outcome.ending = .ok 1 →
      outcome.session.tree = session.tree ∨
        ∃ report least, Command.Completes surroundings session command report (some least) ∧
          (∃ entry ∈ report.submissions, entry.result.devScore < least) ∧
          outcome.session.tree = ungated.tree) ∧
    ∀ report threshold, Command.Completes surroundings session command report threshold →
      HeldAgainst threshold report ungated outcome := by
  intro outcome ungated
  refine ⟨fun failed => ?_, fun report threshold =>
    invoke_of_completes surroundings session accepted⟩
  rcases ran : (command.run surroundings).runOn session with ⟨answer, later⟩
  have outcome_eq : outcome = _ := invoke_of_accepted surroundings session accepted ran
  have answer_eq : answer = .ok .failure := by
    rw [outcome_eq] at failed
    rcases answer with fault | _ | _
    · cases failed
    · cases failed
    · rfl
  rw [answer_eq] at ran
  rcases Command.tree_of_failure ran with kept | ⟨report, threshold, completes⟩
  · left
    rwa [outcome_eq]
  · right
    have held := invoke_of_completes surroundings session accepted completes
    have notPassed : ¬Command.Passes report threshold := by
      rw [← held.passes]
      change ¬outcome.ending = .ok 0
      rw [failed]
      simp
    simp only [Command.Passes, not_forall, not_le] at notPassed
    rcases notPassed with ⟨least, inForce, entry, mem, below⟩
    cases inForce
    exact ⟨report, least, completes, ⟨entry, mem, below⟩, held.tree⟩

/-- A command for scores with a threshold that neutral scores do not reach. -/
def gatedArguments : List String :=
  ["score", "-", "--language", "python", "--fail-under", "60", "--json", "out.json"]

/-- The command that they ask for. -/
def gatedCommand : Command :=
  .score { targets := ["-"], language := some "python", jsonPath := some "out.json" } none false
    none (some 60) none

/-- The code to score. -/
def gatedSurroundings : Surroundings where
  input := Utf8.encode "print(1)".toList
  now := 0

/-- An empty directory. -/
def gatedSession : Session where
  tree := { workingDirectory := ["work"], nodes := [(["work"], .directory)] }

/-- The report is written, and then the command fails. -/
theorem invoke_frame_belowThreshold :
    Command.ofArguments gatedArguments = .ok gatedCommand ∧
    ∃ outcome, outcome = invoke gatedSurroundings gatedSession gatedArguments ∧
      outcome.ending = .ok 1 ∧ outcome.session.tree ≠ gatedSession.tree ∧
      outcome.session.tree =
        ((gatedCommand.runUngated gatedSurroundings).runOn gatedSession).2.tree ∧
      ∃ report least,
        Command.Completes gatedSurroundings gatedSession gatedCommand report (some least) ∧
        ∃ entry ∈ report.submissions, entry.result.devScore < least := by
  have accepted : Command.ofArguments gatedArguments = .ok gatedCommand := by decide +kernel
  have failed : (invoke gatedSurroundings gatedSession gatedArguments).ending = .ok 1 := by
    decide +kernel
  have written :
      (invoke gatedSurroundings gatedSession gatedArguments).session.tree ≠ gatedSession.tree := by
    decide +kernel
  rcases (invoke_frame gatedSurroundings gatedSession accepted).1 failed with
    kept | ⟨report, least, completes, below, sameTree⟩
  · exact absurd kept written
  · exact ⟨accepted, _, rfl, failed, written, sameTree, report, least, completes, below⟩

end CommandLine

end Scorecard
