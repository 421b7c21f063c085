import Scorecard.Proofs.Display
import Scorecard.Proofs.Evaluation.Answers
import Scorecard.Proofs.Evaluation.Payload

/-!
# Coherence of the pipeline

Every submission has a result, and the parts of a result belong together: the metrics are those of
the family's rules, the penalty and the score follow from the metrics and the scores, and all of
them are in range. The evaluator has no part in this, since its failures end in the neutral
evaluation and its scores are in range.

What a result cannot be had without is the text of the language and, if a family applies, the text
of the code. The only values without a text are those that hold an integer with too many digits to
be written.
-/

namespace Scorecard

/-- The integers in a submission can be written. -/
def Submission.Printable (submission : Submission) : Prop :=
  Writable (submission.code.integers ++ submission.language.integers)

/-- How a result belongs to its submission. -/
structure Coherent (routes : Routes) (submission : Submission) (result : EvaluationResult) :
    Prop where
  /-- Routing finds the family, whose rules give the metrics; without a family there are none. -/
  analysed :
    (Language.familyOf submission.language routes = .ok none ∧ result.family = none ∧
      result.metrics = .zero) ∨
    ∃ family ∈ Family.all, ∃ text,
      Language.familyOf submission.language routes = .ok (some family) ∧
      codeText submission.code = .ok text ∧ result.family = some family.name ∧
      result.metrics = family.rules.analyze text
  staticPenalty : result.staticPenalty = Scorecard.staticPenalty result.metrics
  penalty_nonneg : 0 ≤ result.staticPenalty
  penalty_le : result.staticPenalty ≤ 10
  scores : result.scores.InRange
  devScore : Scorecard.devScore result.scores (.int result.staticPenalty) = .ok result.devScore
  devScore_nonneg : 0 ≤ result.devScore
  devScore_le : result.devScore ≤ 100
  neutral : result.fallback = true →
    result.scores = .uniform (.int 50) ∧ result.feedback = Evaluation.neutral.feedback ∧
      result.devScore = 50 - min (2 * result.staticPenalty) 10

theorem neutral_inRange : Evaluation.neutral.scores.InRange := by
  constructor <;> decide +kernel

theorem baseValue_neutral : (Scores.uniform (.int 50)).baseValue = 50 * quantaInOne := by
  decide +kernel

/-- The score of the neutral evaluation: twice the penalty, but no more than ten, is taken off. -/
theorem devScoreOf_neutral {penalty : ℤ} (nonneg : 0 ≤ penalty) :
    devScoreOf (Scores.uniform (.int 50)).baseValue penalty = 50 - min (2 * penalty) 10 := by
  have points_nonneg := appliedPoints_nonneg nonneg
  have points_le := appliedPoints_le penalty
  have whole : roundedValue (50 * quantaInOne - appliedPoints penalty * quantaInOne) 1 =
      (50 - appliedPoints penalty) * quantaInOne := by
    rw [← sub_mul, roundedValue_int]
    rw [abs_le]
    omega
  rw [devScoreOf, baseValue_neutral, whole, Number.halfUp_int]
  · rw [appliedPoints] at points_le ⊢
    omega
  · rw [abs_le]
    omega

theorem payloadOpinion_inRange {text : String} {evaluation : Evaluation}
    (given : payloadOpinion text = some evaluation) : evaluation.scores.InRange := by
  rw [payloadOpinion] at given
  cases parsed : Payload.parse text with
  | error fault => simp [parsed] at given
  | ok answer =>
      simp only [parsed] at given
      subst given
      exact Payload.parse_inRange parsed

/-- Whatever the evaluator, the scores of its opinion are in range. -/
theorem opinion_inRange {evaluator : Evaluator} {tree : FileTree} {evaluation : Evaluation}
    (given : evaluator.opinion tree = some evaluation) : evaluation.scores.InRange := by
  cases evaluator with
  | neutral => cases given
  | failing reason => cases given
  | answering value => cases given
  | payload text => exact payloadOpinion_inRange given
  | file path =>
      rw [Evaluator.opinion] at given
      cases read : tree.readText path with
      | error fault => simp [read] at given
      | ok text =>
          simp only [read] at given
          exact payloadOpinion_inRange given

namespace Language

theorem nameText_writtenIf (language : Data) : WrittenIf (nameText language) language.integers := by
  rw [nameText]
  split
  · exact language.display_writtenIf
  · exact .ok _

theorem familyOf_writtenIf (language : Data) (routes : Routes) :
    WrittenIf (familyOf language routes) language.integers := by
  rw [familyOf]
  split
  · exact language.display_writtenIf.bind fun _ _ => .ok _
  · exact .ok _

end Language

theorem codeText_writtenIf (code : Data) : WrittenIf (codeText code) code.integers := by
  rw [codeText.eq_def]
  split
  · exact .ok _
  · exact .ok _
  · exact .ok _
  · exact code.display_writtenIf.bind fun _ _ => .ok _

theorem metricsOf_writtenIf (code language : Data) (routes : Routes) :
    WrittenIf (metricsOf code language routes) (code.integers ++ language.integers) := by
  refine (Language.familyOf_writtenIf language routes).append_left.bind fun family _ => ?_
  cases family with
  | none =>
      have named : WrittenIf (unroutedName language) language.integers :=
        (Language.nameText_writtenIf language).bind fun _ _ => .ok _
      exact named.append_left.bind fun _ _ => .ok _
  | some family => exact (codeText_writtenIf code).append_right.bind fun _ _ => .ok _

/-- What is measured is nothing without a family, and with one the analysis by its rules. -/
theorem analysed_of_metricsOf {code language : Data} {routes : Routes} {family : Option Family}
    {metrics : Metrics} (routed : Language.familyOf language routes = .ok family)
    (measured : metricsOf code language routes = .ok metrics) :
    (family = none ∧ metrics = .zero) ∨
      ∃ known text, family = some known ∧ codeText code = .ok text ∧
        metrics = known.rules.analyze text := by
  rcases bind_eq_ok_iff.mp measured with ⟨routedFamily, routedAgain, measured⟩
  rw [routed] at routedAgain
  cases routedAgain
  cases family with
  | none =>
      rcases bind_eq_ok_iff.mp measured with ⟨_, _, zero⟩
      cases zero
      exact .inl ⟨rfl, rfl⟩
  | some known =>
      rcases bind_eq_ok_iff.mp measured with ⟨text, read, analysed⟩
      cases analysed
      exact .inr ⟨known, text, rfl, read, rfl⟩

section

variable {opinion : Option Evaluation}
  (inRange : ∀ evaluation, opinion = some evaluation → evaluation.scores.InRange)
  (routes : Routes) (submission : Submission)

include inRange

theorem getD_neutral_inRange : (opinion.getD .neutral).scores.InRange := by
  cases opinion with
  | none => exact neutral_inRange
  | some evaluation => exact inRange evaluation rfl

theorem resultOf_writtenIf :
    WrittenIf (resultOf opinion routes submission)
      (submission.code.integers ++ submission.language.integers) := by
  refine (metricsOf_writtenIf _ _ routes).bind fun metrics _ => ?_
  refine (Language.familyOf_writtenIf _ routes).append_left.bind fun family _ => ?_
  refine (Language.nameText_writtenIf _).append_left.bind fun name _ => ?_
  rw [devScore_eq (getD_neutral_inRange inRange) (staticPenalty_nonneg metrics)]
  exact .ok _

theorem resultOf_coherent {result : EvaluationResult}
    (returned : resultOf opinion routes submission = .ok result) :
    Coherent routes submission result := by
  rcases bind_eq_ok_iff.mp returned with ⟨metrics, measured, returned⟩
  rcases bind_eq_ok_iff.mp returned with ⟨family, routed, returned⟩
  rcases bind_eq_ok_iff.mp returned with ⟨name, _, returned⟩
  rcases bind_eq_ok_iff.mp returned with ⟨score, scored, returned⟩
  cases returned
  have score_eq := scored
  rw [devScore_eq (getD_neutral_inRange inRange) (staticPenalty_nonneg metrics),
    Except.ok.injEq] at score_eq
  refine {
    analysed := ?_
    staticPenalty := rfl
    penalty_nonneg := staticPenalty_nonneg metrics
    penalty_le := staticPenalty_le metrics
    scores := getD_neutral_inRange inRange
    devScore := scored
    devScore_nonneg := ?_
    devScore_le := ?_
    neutral := ?_ }
  · rcases analysed_of_metricsOf routed measured with ⟨rfl, rfl⟩ | ⟨known, text, rfl, read, rfl⟩
    · exact .inl ⟨routed, rfl, rfl⟩
    · exact .inr ⟨known, by cases known <;> decide, text, routed, read, rfl, rfl⟩
  · rw [← score_eq]
    exact devScoreOf_nonneg _ _
  · rw [← score_eq]
    exact devScoreOf_le _ _
  · intro fallback
    cases opinion with
    | some evaluation => cases fallback
    | none =>
        refine ⟨rfl, rfl, ?_⟩
        rw [← score_eq]
        exact devScoreOf_neutral (staticPenalty_nonneg metrics)

end

/-- The results of submissions are coherent one by one. -/
theorem forall₂_coherent {tree : FileTree} {evaluator : Evaluator} {routes : Routes}
    {submissions : List Submission} {journal : Journal} {results : List EvaluationResult}
    (returned : ((evaluateAll tree evaluator routes submissions).runOn journal).1 = .ok results) :
    List.Forall₂ (Coherent routes) submissions results := by
  rw [answers_evaluateAll, mapM_eq_ok_iff] at returned
  refine returned.imp ?_
  intro submission result each
  exact resultOf_coherent (fun _ => opinion_inRange) routes submission each

/-- Every submission gets one coherent result, in order, whatever the evaluator does and whatever
was recorded before. Only an integer with too many digits to be written can stand in the way. -/
theorem evaluateAll_coherent (tree : FileTree) (evaluator : Evaluator) (routes : Routes)
    (submissions : List Submission) (journal : Journal) :
    (∃ results,
      ((evaluateAll tree evaluator routes submissions).runOn journal).1 = .ok results ∧
        List.Forall₂ (Coherent routes) submissions results) ∨
    (((evaluateAll tree evaluator routes submissions).runOn journal).1 = .error .integerTooLong ∧
      ∃ submission ∈ submissions, ¬ submission.Printable) := by
  have answers := answers_evaluateAll tree evaluator routes submissions journal
  have inRange : ∀ evaluation, evaluator.opinion tree = some evaluation →
      evaluation.scores.InRange := fun _ => opinion_inRange
  rcases mapM_ok_or_error (resultOf_writtenIf inRange routes) submissions with
    ⟨results, returned⟩ | ⟨failed, long⟩
  · have evaluated := answers.trans returned
    exact .inl ⟨results, evaluated, forall₂_coherent evaluated⟩
  · exact .inr ⟨answers.trans failed, long⟩

/-- A language with too many digits to be written leaves its submission without a result. -/
theorem evaluateAll_long_language :
    ((evaluateAll ⟨[], []⟩ .neutral []
      [{ code := .text "eval(x);", language := .int (10 ^ digitLimit) }]).runOn {}).1 =
      .error .integerTooLong := by
  decide +kernel

end Scorecard
