import Scorecard.Proofs.Report.Origin

/-!
# What the metrics keep to

Whatever is analysed, its metrics keep to the size of its text. A piece of code without a family has
none. With a family the counts are bounded by the lines, the signs of equality and the probes that
there are, so the penalty stays between zero and ten, and the counts come back from their document
as they are.
-/

namespace Scorecard

/-- What the metrics of a piece of code keep to, given the family that its language has. -/
structure Metrics.Measured (code : Data) (family : Option Family) (metrics : Metrics) : Prop where
  clean : family = none → metrics = .zero
  bounded : ∀ used, family = some used →
    ∃ text, codeText code = .ok text ∧ metrics.Bounded text used.rules.securityProbes.length
  penalty_nonneg : 0 ≤ staticPenalty metrics
  penalty_le : staticPenalty metrics ≤ 10
  reread : Metrics.ofData metrics.toData = .ok metrics

theorem metricsOf_measured {code language : Data} {routes : Routes} {metrics : Metrics}
    (returned : metricsOf code language routes = .ok metrics) :
    ∃ family, Language.familyOf language routes = .ok family ∧ metrics.Measured code family := by
  rcases bind_eq_ok_iff.mp returned with ⟨family, routed, counted⟩
  use family, routed
  cases family with
  | none =>
      rcases bind_eq_ok_iff.mp counted with ⟨name, _, zero⟩
      cases zero
      refine ⟨fun _ => rfl, ?_, staticPenalty_nonneg _, staticPenalty_le _, ?_⟩
      · intro used none_used
        cases none_used
      · exact Metrics.ofData_toData Metrics.kept_zero
  | some family =>
      rcases bind_eq_ok_iff.mp counted with ⟨text, read, analysed⟩
      cases analysed
      refine ⟨?_, ?_, staticPenalty_nonneg _, staticPenalty_le _, ?_⟩
      · intro no_family
        cases no_family
      · intro used family_used
        cases family_used
        exact ⟨text, read, family.rules.analyze_bounded text⟩
      · exact Metrics.ofData_toData (Metrics.kept_analyze family.rules text)

/-- The metrics of any code in any language under any routes keep to their bounds. Only an integer
with too many digits to be written leaves a call without metrics. -/
theorem analyze_measured (code language : Data) (routes : Routes) (journal : Journal) :
    (∃ family metrics, Language.familyOf language routes = .ok family ∧
      ((analyze code language routes).runOn journal).1 = .ok metrics ∧
      metrics.Measured code family) ∨
    (((analyze code language routes).runOn journal).1 = .error .integerTooLong ∧
      ¬ Writable (code.integers ++ language.integers)) := by
  have answers := answers_analyze code language routes journal
  rcases metricsOf_writtenIf code language routes with ⟨metrics, returned⟩ | ⟨failed, long⟩
  · rcases metricsOf_measured returned with ⟨family, routed, measured⟩
    exact .inl ⟨family, metrics, routed, answers.trans returned, measured⟩
  · exact .inr ⟨answers.trans failed, long⟩

end Scorecard
